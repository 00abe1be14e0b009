import ImageRegistry.Collection.Table
import ImageRegistry.Text.Split
import ImageRegistry.Text.Utf8

/-!
# A tree of files

The files that the registry reads and writes, as data. A place in the tree is the list of names on
the way to it; it holds a directory, a file or a symbolic link to a path. Every path is read from
the top of the tree (`Tree.walk`): an empty part and `.` stay where they are, `..` goes up, and a
symbolic link puts its target in its place, at most forty times.
-/

namespace ImageRegistry.Files

/-- The ways in which work on files fails. -/
inductive Failure where
  | notFound
  | alreadyExists
  | notADirectory
  | isADirectory
  /-- A name is longer than 255 bytes, or a path longer than 4095. -/
  | nameTooLong
  /-- A path leads through more than forty symbolic links. -/
  | linkLoop
  /-- A path holds a NUL. -/
  | nulInPath
  /-- A file that is read as text is not UTF-8. -/
  | notText
  deriving DecidableEq, Repr

/-- The wording of a failure. -/
def Failure.message : Failure → String
  | notFound => "No such file or directory (os error 2)"
  | alreadyExists => "File exists (os error 17)"
  | notADirectory => "Not a directory (os error 20)"
  | isADirectory => "Is a directory (os error 21)"
  | nameTooLong => "File name too long (os error 36)"
  | linkLoop => "Too many levels of symbolic links (os error 40)"
  | nulInPath => "file name contained an unexpected NUL byte"
  | notText => "stream did not contain valid UTF-8"

/-- What stands at a place of the tree. -/
inductive Node where
  | directory
  | file (content : ByteArray)
  | link (target : ByteArray)
  deriving DecidableEq

/-- The names on the way from the top to a place. -/
abbrev Place : Type := List ByteArray

/-- A tree of files. The top is a directory that is always there. -/
structure Tree where
  nodes : Table Place Node
  deriving DecidableEq

/-! ### Paths -/

/-- The parts of a path between its slashes. -/
def parts (path : ByteArray) : List ByteArray :=
  (Text.segments 0x2f (Text.byteList path)).map Text.bytesOf

/-- The name that stays where it is. -/
def here : ByteArray := ".".toUTF8

/-- The name that goes up. -/
def up : ByteArray := "..".toUTF8

/-- Whether a part of a path stays where it is. -/
def staysHere (part : ByteArray) : Bool := part.isEmpty || part = here

/-- The greatest length of a name. -/
abbrev maxName : Nat := 255

/-- The length at which a path is too long. -/
abbrev pathBound : Nat := 4096

/-- The parts of a path that can be asked for. -/
def askedParts (path : ByteArray) : Except Failure (List ByteArray) :=
  if (Text.byteList path).contains 0 then .error .nulInPath
  else if path.isEmpty then .error .notFound
  else if pathBound ≤ path.size then .error .nameTooLong
  else .ok (parts path)

namespace Tree

/-- The tree with nothing in it. -/
def empty : Tree := ⟨∅⟩

instance : EmptyCollection Tree := ⟨empty⟩

/-- What stands at a place. -/
def node? (t : Tree) : Place → Option Node
  | [] => some .directory
  | place => t.nodes.get? place

/-! ### Following a path -/

/-- The place that the names of a path lead to from a directory, where nothing need stand. Only if
`follow` is set is a symbolic link at the very end followed. Where one is followed, `jump` goes on
with the directory that it is in, its target and what is left of the path. -/
def walkNames (t : Tree) (follow : Bool)
    (jump : Place → ByteArray → List ByteArray → Except Failure Place) (place : Place) :
    List ByteArray → Except Failure Place
  | [] => .ok place
  | name :: rest =>
    if staysHere name then walkNames t follow jump place rest
    else if name = up then walkNames t follow jump place.dropLast rest
    else if maxName < name.size then .error .nameTooLong
    else
      let next := place ++ [name]
      match t.node? next with
      | none => if rest.isEmpty then .ok next else .error .notFound
      | some .directory => walkNames t follow jump next rest
      | some (.file _) => if rest.isEmpty then .ok next else .error .notADirectory
      | some (.link target) =>
        if rest.isEmpty && !follow then .ok next else jump place target rest

/-- The directory from which the target of a symbolic link is read. -/
def origin (place : Place) (target : ByteArray) : Place :=
  if (Text.byteList target).head? = some 0x2f then [] else place

/-- The place that a path leads to from a directory, through so many symbolic links at most. -/
def walk (t : Tree) (follow : Bool) (fuel : Nat) : Place → List ByteArray → Except Failure Place :=
  t.walkNames follow fun place target rest ↦
    match fuel with
    | 0 => .error .linkLoop
    | fuel + 1 => walk t follow fuel (origin place target) (parts target ++ rest)

theorem walk_nil (t : Tree) (follow : Bool) (fuel : Nat) (place : Place) :
    t.walk follow fuel place [] = .ok place := by
  cases fuel <;> rfl

theorem walk_cons (t : Tree) (follow : Bool) (fuel : Nat) (place : Place) (name : ByteArray)
    (rest : List ByteArray) : t.walk follow fuel place (name :: rest) =
      if staysHere name then t.walk follow fuel place rest
      else if name = up then t.walk follow fuel place.dropLast rest
      else if maxName < name.size then .error .nameTooLong
      else match t.node? (place ++ [name]) with
        | none => if rest.isEmpty then .ok (place ++ [name]) else .error .notFound
        | some .directory => t.walk follow fuel (place ++ [name]) rest
        | some (.file _) => if rest.isEmpty then .ok (place ++ [name]) else .error .notADirectory
        | some (.link target) =>
          if rest.isEmpty && !follow then .ok (place ++ [name])
          else match fuel with
            | 0 => .error .linkLoop
            | fuel + 1 => t.walk follow fuel (origin place target) (parts target ++ rest) := by
  cases fuel <;> rfl

/-- The symbolic links that one path may lead through. -/
abbrev maxLinks : Nat := 40

/-- The place that a path leads to. -/
def locate (t : Tree) (follow : Bool) (path : ByteArray) : Except Failure Place := do
  t.walk follow maxLinks [] (← askedParts path)

/-! ### Reading -/

/-- The content of a file. -/
def read (t : Tree) (path : ByteArray) : Except Failure ByteArray := do
  match t.node? (← t.locate true path) with
  | some (.file content) => .ok content
  | some .directory => .error .isADirectory
  | _ => .error .notFound

/-- The content of a file as text. -/
def readText (t : Tree) (path : String) : Except Failure String := do
  match Text.utf8? (← t.read path.toUTF8) with
  | some text => .ok text
  | none => .error .notText

/-- Whether a path leads to a directory. -/
def isDirectory (t : Tree) (path : ByteArray) : Bool :=
  match t.locate true path with
  | .ok place => t.node? place = some .directory
  | .error _ => false

/-- What stands in the directory that a path leads to, with the names. -/
def children (t : Tree) (path : ByteArray) : Except Failure (List (ByteArray × Node)) := do
  let place ← t.locate true path
  match t.node? place with
  | some .directory =>
    .ok (t.nodes.entries.filterMap fun e ↦
      match e.1.getLast? with
      | some name => if e.1.dropLast = place then some (name, e.2) else none
      | none => none)
  | some _ => .error .notADirectory
  | none => .error .notFound

/-! ### Writing -/

/-- The tree with something else at a place. -/
def put (t : Tree) (place : Place) (node : Node) : Tree := ⟨t.nodes.insert place node⟩

/-- The tree with a file of this content at the end of a path, in the place of the file that was
there. -/
def write (t : Tree) (path content : ByteArray) : Except Failure Tree := do
  let place ← t.locate true path
  match t.node? place with
  | some .directory => .error .isADirectory
  | _ => .ok (t.put place (.file content))

/-- The tree with something new at the end of a path. -/
def make (t : Tree) (path : ByteArray) (node : Node) : Except Failure Tree := do
  let place ← t.locate false path
  match t.node? place with
  | some _ => .error .alreadyExists
  | none => .ok (t.put place node)

/-- The path of some parts, from the top if the first part is empty. -/
def joined : List ByteArray → ByteArray
  | [] => ByteArray.empty
  | [part] => part
  | part :: rest => part ++ "/".toUTF8 ++ joined rest

/-- The tree with a directory at the end of a path, given by its parts in reverse, and on the way to
it, as far as they can be made. -/
def makeDirectories (t : Tree) : List ByteArray → Except Failure Unit × Tree
  | [] => (.ok (), t)
  | name :: above =>
    let path := joined (name :: above).reverse
    if path.isEmpty then (.ok (), t)
    else match t.make path .directory with
      | .ok made => (.ok (), made)
      | .error .notFound =>
        match makeDirectories t above with
        | (.error failure, made) => (.error failure, made)
        | (.ok (), made) =>
          match made.make path .directory with
          | .ok full => (.ok (), full)
          | .error failure => (if made.isDirectory path then .ok () else .error failure, made)
      | .error failure =>
        (if failure = .alreadyExists ∧ t.isDirectory path = true then .ok () else .error failure, t)

/-- The parts of a path that name something, in reverse. -/
def namedParts (path : ByteArray) : List ByteArray :=
  match parts path with
  | [] => []
  | first :: rest =>
    let named := rest.filter (!staysHere ·)
    (if first.isEmpty || !staysHere first then first :: named else named).reverse

/-- The tree with a directory at the end of a path and on the way to it. -/
def ensureDirectory (t : Tree) (path : ByteArray) : Except Failure Unit × Tree :=
  t.makeDirectories (namedParts path)

/-- The tree with a directory in which the end of a path can be made. -/
def ensureParent (t : Tree) (path : ByteArray) : Except Failure Unit × Tree :=
  t.makeDirectories (namedParts path).tail

/-- The tree without the file or symbolic link at the end of a path. -/
def remove (t : Tree) (path : ByteArray) : Except Failure Tree := do
  let place ← t.locate false path
  match t.node? place with
  | none => .error .notFound
  | some .directory => .error .isADirectory
  | some _ => .ok ⟨t.nodes.erase place⟩

/-- All files and symbolic links with the paths to them. -/
def files (t : Tree) : List (ByteArray × Node) :=
  t.nodes.entries.filterMap fun e ↦
    if e.2 = .directory then none else some (joined e.1, e.2)

end Tree

end ImageRegistry.Files
