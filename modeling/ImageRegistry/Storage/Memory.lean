import ImageRegistry.Collection.Ordered
import ImageRegistry.Collection.Table
import ImageRegistry.Digest.Basic
import ImageRegistry.Storage.Entry
import ImageRegistry.Storage.Error

/-!
# Storage in memory

A tree of files and directories in which a node is named by the hash of its content, so the same
content has the same identifier. A directory can only be made of children that are stored. A path
`identifier/child/grandchild` goes down through directories.
-/

namespace ImageRegistry.Storage

namespace Memory

/-- A node of the tree. The children of a directory are in increasing order of their names, each
name with the identifier of its child. -/
inductive Node where
  | file (content : ByteArray)
  | directory (children : List (String × String))
  deriving DecidableEq

/-- What an entry tells of a node. -/
def Node.entry (name id : String) : Node → Entry
  | .file content => ⟨name, content.size, .file, id⟩
  | .directory _ => ⟨name, 0, .directory, id⟩

/-- The bytes that name a file. -/
def fileText (content : ByteArray) : ByteArray := "file\x00".toUTF8 ++ content

/-- The bytes that name a directory. -/
def directoryText (children : List (String × String)) : ByteArray :=
  children.foldl
    (fun text c ↦ text ++ c.1.toUTF8 ++ "\x00".toUTF8 ++ c.2.toUTF8 ++ "\n".toUTF8)
    "directory\x00".toUTF8

/-- The names of a path beneath an identifier, the identifier first. -/
def segments (path : String) : List String :=
  ((Text.segments '/' path.toList).filter (!·.isEmpty)).map String.ofList

end Memory

/-- A tree of files and directories, by their identifiers. -/
structure Memory where
  nodes : Table String Memory.Node
  deriving DecidableEq

namespace Memory

/-- The tree with nothing in it. -/
def empty : Memory := ⟨∅⟩

instance : EmptyCollection Memory := ⟨empty⟩

/-- The error that something is not there. -/
def missing (identifier : String) (cause : Cause) : Error :=
  ⟨.notFound, "memory", some identifier, cause⟩

/-- Stores a file: its identifier, and the tree with it. -/
def insertFile (m : Memory) (content : ByteArray) : String × Memory :=
  let id := Digest.hashHex (fileText content)
  (id, ⟨m.nodes.insert id (.file content)⟩)

/-- The children of a directory in order, the last one of each name. -/
def childTable (children : List (String × String)) : List (String × String) :=
  Ordered.ofList Prod.fst children

/-- Stores a directory of children that are stored: its identifier, and the tree with it. -/
def insertDirectory (m : Memory) (children : List (String × String)) :
    Except Error (String × Memory) :=
  let table := childTable children
  match table.find? fun c ↦ !m.nodes.contains c.2 with
  | some child => .error (missing child.2 .childNotFound)
  | none =>
    let id := Digest.hashHex (directoryText table)
    .ok (id, ⟨m.nodes.insert id (.directory table)⟩)

/-- The node that the names lead to, from a node on. -/
def descend (m : Memory) (node : Node) : List String → Option Node
  | [] => some node
  | name :: rest =>
    match node with
    | .file _ => none
    | .directory children => do
      let child ← m.nodes.get? (← children.lookup name)
      m.descend child rest

/-- The node at the end of a path. -/
def walk (m : Memory) (path : String) : Except Error Node :=
  match segments path with
  | [] => .error (missing path .identifierNotFound)
  | id :: rest =>
    match m.nodes.get? id with
    | none => .error (missing path .identifierNotFound)
    | some node =>
      match m.descend node rest with
      | some node => .ok node
      | none => .error (missing path .pathNotFound)

/-- The content of the file at the end of a path. -/
def read (m : Memory) (path : String) : Except Error ByteArray := do
  match ← m.walk path with
  | .file content => .ok content
  | .directory _ => .error ⟨.invalidRequest, "memory", some path, .directoryRead⟩

/-- The entries of the directory at the end of a path; a file has none. -/
def list (m : Memory) (path : String) : Except Error (List Entry) := do
  match ← m.walk path with
  | .file _ => .ok []
  | .directory children =>
    .ok (children.filterMap fun c ↦ (m.nodes.get? c.2).map (Node.entry c.1 c.2))

end Memory

end ImageRegistry.Storage
