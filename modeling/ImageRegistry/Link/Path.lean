import ImageRegistry.Text.Split

/-!
# Where link files are

The link of a reference is kept in the file `root/repository/@reference`. Parts of the repository
that would lead out of the root are skipped, and a slash of the reference is escaped, so the file
always lies beneath the root. The mark keeps the file of a tag out of the way of the directories of
other repositories, unless a part of one of these begins with `@` too, which nothing forbids.
-/

namespace ImageRegistry.Link

/-- The mark at the beginning of the name of a link file. -/
def mark : Char := '@'

/-- A path with one more part at its end. -/
def push (path part : List Char) : List Char :=
  if path = [] ∨ path.getLast? = some '/' then path ++ part else path ++ '/' :: part

/-- Whether a part of a repository is skipped. -/
def isSkipped (part : List Char) : Bool := part = [] || part = ['.'] || part = ['.', '.']

/-- The parts of a repository that name directories. -/
def parts (repository : String) : List (List Char) :=
  (Text.segments '/' repository.toList).filter (!isSkipped ·)

/-- The directory of a repository beneath the root. -/
def directory (root repository : String) : String :=
  String.ofList ((parts repository).foldl push root.toList)

/-- The reference without slashes. -/
def escaped (reference : String) : List Char :=
  reference.toList.flatMap fun c ↦ if c = '/' then ['%', '2', 'F'] else [c]

/-- The name of the link file of a reference. -/
def fileName (reference : String) : List Char := mark :: escaped reference

/-- The path of the link file of a reference. -/
def path (root repository reference : String) : String :=
  String.ofList (push (directory root repository).toList (fileName reference))

end ImageRegistry.Link
