import ImageRegistry.Link.Path
import ImageRegistry.Resolver.Basic
import ImageRegistry.Text.Blank

/-!
# Resolving from link files

A tree of link files lists identifiers, one a line. A reference is looked up in its own file; all
that is known of a repository stands in the link files of its directory.
-/

namespace ImageRegistry.Resolver

/-- The identifiers that the text of a link file lists. -/
def listed (text : String) : List String :=
  (((Text.lines text.toList).map Text.trim).filter (!·.isEmpty)).map String.ofList

/-- The identifiers in a file. A file that is not there lists none. -/
def readIdentifiers (files : Files.Tree) (path : String) : Except ResolveFailure (List String) :=
  match files.readText path with
  | .ok text => .ok (listed text)
  | .error .notFound => .ok []
  | .error failure => .error (.files path failure)

/-- The path of a file of a directory, if it is a link file with a name that is text. -/
def linkFile? (directory : String) : ByteArray × Files.Node → Option String
  | (name, .file _) =>
    if (Text.byteList name).head? = some 0x40 then
      (Text.utf8? name).map fun text ↦ String.ofList (Link.push directory.toList text.toList)
    else none
  | _ => none

/-- The identifiers in all link files of a directory. A directory that is not there has none. -/
def readDirectory (files : Files.Tree) (directory : String) :
    Except ResolveFailure (List String) :=
  match files.children directory.toUTF8 with
  | .ok children => do
    return (← (children.filterMap (linkFile? directory)).mapM (readIdentifiers files)).flatten
  | .error .notFound => .ok []
  | .error failure => .error (.files directory failure)

/-- What the link files beneath a root say of a reference, or of a whole repository. -/
def lookUp (files : Files.Tree) (root repository reference : String) :
    Except ResolveFailure (List String) :=
  if reference.isEmpty then readDirectory files (Link.directory root repository)
  else readIdentifiers files (Link.path root repository reference)

/-- The resolver that reads the link files beneath a root. -/
def ofFiles (root : String) : Resolver where
  name := "file"
  ask repository reference := do
    .ofExcept id (lookUp (← .reading World.files) root repository reference)

end ImageRegistry.Resolver
