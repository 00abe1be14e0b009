import ImageRegistry.Proofs.Storage.Run

/-!
# Paths in a tree

A path is walked name by name, from the node of the identifier that it begins with (`reach`). A
slash parts a path into two, and the names of the one come before the names of the other
(`segments_slash`), so to walk a path is to walk what stands before a slash and to go on from there
(`reach_append`), and a slash more changes nothing.

To list and to read a path is then a matter of the node that it leads to. `Agrees` says that two
paths are listed and read alike, errors included, which only name another path.
-/

namespace ImageRegistry.Storage

/-- The error as it is told of a path. -/
def Error.named (path : String) (e : Error) : Error := { e with identifier := some path }

namespace Memory

variable {m : Memory} {node : Node} {path other name : String} {names more : List String}
  {children : List (String × String)}

/-! ### Names of a path -/

@[simp] theorem segments_empty : segments "" = [] := by decide

theorem segments_slash (path rest : String) :
    segments (path ++ "/" ++ rest) = segments path ++ segments rest := by
  have htext : (path ++ "/" ++ rest).toList = path.toList ++ '/' :: rest.toList := by
    rw [String.toList_append, String.toList_append, List.append_assoc]
    rfl
  rw [segments, htext, Text.segments_append, List.filter_append, List.map_append]
  rfl

theorem segments_of_name (hne : name ≠ "") (hslash : '/' ∉ name.toList) :
    segments name = [name] := by
  have hkept : [name.toList].filter (!·.isEmpty) = [name.toList] := by simpa using hne
  rw [segments, Text.segments_of_not_mem hslash, hkept, List.map_singleton, String.ofList_toList]

/-- An identifier is one name. -/
theorem segments_id (node : Node) : segments node.id = [node.id] := by
  refine segments_of_name ?_ fun hslash ↦ ?_
  · intro hempty
    have hlength := Digest.length_hashHex node.text
    rw [← Node.id, hempty] at hlength
    cases hlength
  · have hdigit := Digest.mem_hashHex hslash
    revert hdigit
    decide

/-! ### Where names lead -/

/-- The node that names lead to, of which the first one is an identifier. -/
def reach (m : Memory) : List String → Option Node
  | [] => none
  | id :: rest => (m.nodes.get? id).bind fun node ↦ m.descend node rest

/-- Names lead to a node when they begin with an identifier and go down from its node. -/
theorem reach_eq_some_iff : m.reach names = some node ↔ ∃ id rest top,
    names = id :: rest ∧ m.nodes.get? id = some top ∧ m.descend top rest = some node := by
  cases names with
  | nil => simp [reach]
  | cons id rest =>
    rw [reach, Option.bind_eq_some_iff]
    constructor
    · rintro ⟨top, htop, hdescend⟩
      exact ⟨id, rest, top, rfl, htop, hdescend⟩
    · rintro ⟨_, _, top, ⟨⟩, htop, hdescend⟩
      exact ⟨top, htop, hdescend⟩

theorem descend_append (m : Memory) (node : Node) (names more : List String) :
    m.descend node (names ++ more) =
      (m.descend node names).bind fun node ↦ m.descend node more := by
  induction names generalizing node with
  | nil => rfl
  | cons name rest ih =>
    cases node with
    | file content => rfl
    | directory children =>
      simp only [List.cons_append, descend, Option.bind_eq_bind]
      cases children.lookup name with
      | none => rfl
      | some id =>
        simp only [Option.bind_some]
        cases m.nodes.get? id with
        | none => rfl
        | some child => exact ih child

theorem reach_append (m : Memory) (hne : names ≠ []) (more : List String) :
    m.reach (names ++ more) = (m.reach names).bind fun node ↦ m.descend node more := by
  cases names with
  | nil => exact absurd rfl hne
  | cons id rest =>
    rw [List.cons_append, reach, reach, Option.bind_assoc]
    exact congrArg _ (funext fun node ↦ m.descend_append node rest more)

/-- Names go on from where a path leads. -/
theorem reach_slash (h : m.reach (segments path) = some node) (rest : String) :
    m.reach (segments (path ++ "/" ++ rest)) = m.descend node (segments rest) := by
  obtain ⟨id, names, top, hnames, -, -⟩ := reach_eq_some_iff.1 h
  have hne : segments path ≠ [] := by simp [hnames]
  rw [segments_slash, reach_append m hne, h]
  rfl

/-- Neither through a file nor through a name that is missing does a path lead anywhere. -/
theorem descend_of_missing
    (h : ∀ children, node = .directory children → children.lookup name = none)
    (more : List String) : m.descend node (name :: more) = none := by
  cases node with
  | file content => rfl
  | directory children => rw [descend, h children rfl]; rfl

/-- A name leads to the node that its child names. -/
theorem descend_of_lookup {id : String} (h : children.lookup name = some id) :
    m.descend (.directory children) [name] = m.nodes.get? id := by
  rw [descend, h]
  show (m.nodes.get? id).bind _ = _
  cases m.nodes.get? id with
  | none => rfl
  | some child => rfl

/-- Where names lead is stored under some identifier. -/
theorem exists_get?_of_descend (hnode : ∃ id, m.nodes.get? id = some node) {last : Node}
    (h : m.descend node names = some last) : ∃ id, m.nodes.get? id = some last := by
  induction names generalizing node with
  | nil =>
    obtain rfl := Option.some.inj h
    exact hnode
  | cons name rest ih =>
    cases node with
    | file content => cases h
    | directory children =>
      rw [descend] at h
      obtain ⟨id, -, h⟩ := Option.bind_eq_some_iff.1 h
      obtain ⟨child, hchild, h⟩ := Option.bind_eq_some_iff.1 h
      exact ih ⟨id, hchild⟩ h

/-! ### Walking a path -/

/-- Why names lead nowhere. -/
def failure (m : Memory) : List String → Cause
  | [] => .identifierNotFound
  | id :: _ => if m.nodes.contains id then .pathNotFound else .identifierNotFound

theorem walk_eq (m : Memory) (path : String) :
    m.walk path =
      (m.reach (segments path)).elim (.error (missing path (m.failure (segments path)))) .ok := by
  rw [walk]
  cases segments path with
  | nil => rfl
  | cons id rest =>
    rw [reach, failure, Table.contains]
    dsimp only
    cases m.nodes.get? id with
    | none => rfl
    | some node =>
      rw [Option.bind_some]
      cases hdescend : m.descend node rest with
      | none => simp [hdescend]
      | some last => simp [hdescend]

theorem walk_eq_ok_iff : m.walk path = .ok node ↔ m.reach (segments path) = some node := by
  rw [walk_eq]
  cases m.reach (segments path) with
  | none => simp
  | some found => simp

/-- An identifier under which something is stored is a path to it. -/
theorem walk_of_get? (hsound : m.Sound) {id : String} (h : m.nodes.get? id = some node) :
    m.walk id = .ok node := by
  rw [walk_eq_ok_iff, reach_eq_some_iff]
  refine ⟨id, [], node, ?_, h, rfl⟩
  rw [hsound.named h, segments_id]

/-- So is what stands at the end of a path. -/
theorem exists_get?_of_walk (h : m.walk path = .ok node) :
    ∃ id, m.nodes.get? id = some node := by
  obtain ⟨id, rest, top, -, htop, hdescend⟩ := reach_eq_some_iff.1 (walk_eq_ok_iff.1 h)
  exact exists_get?_of_descend ⟨id, htop⟩ hdescend

theorem Sound.holds_of_walk (hsound : m.Sound) (h : m.walk path = .ok node) : m.Holds node := by
  obtain ⟨id, hid⟩ := exists_get?_of_walk h
  exact hsound.closed hid

/-! ### Listing and reading -/

/-- The entries of a node; a file has none. -/
def entries (m : Memory) : Node → List Entry
  | .file _ => []
  | .directory children => children.filterMap fun c ↦ (m.nodes.get? c.2).map (Node.entry c.1 c.2)

/-- The content of a node, which stands at the end of a path. -/
def content (path : String) : Node → Except Error ByteArray
  | .file content => .ok content
  | .directory _ => .error ⟨.invalidRequest, "memory", some path, .directoryRead⟩

theorem list_eq (m : Memory) (path : String) : m.list path = (m.walk path).map m.entries := by
  rw [list]
  cases m.walk path with
  | error error => rfl
  | ok node => cases node <;> rfl

theorem read_eq (m : Memory) (path : String) : m.read path = (m.walk path).bind (content path) := by
  rw [read]
  cases m.walk path with
  | error error => rfl
  | ok node => cases node <;> rfl

theorem list_eq_ok_iff {entries : List Entry} :
    m.list path = .ok entries ↔ ∃ node, m.walk path = .ok node ∧ m.entries node = entries := by
  rw [list_eq]
  cases m.walk path with
  | error error => exact ⟨fun h ↦ (nomatch h), fun ⟨_, h, _⟩ ↦ (nomatch h)⟩
  | ok node => simp [Except.map]

theorem read_eq_ok_iff {bytes : ByteArray} :
    m.read path = .ok bytes ↔ m.walk path = .ok (.file bytes) := by
  rw [read_eq]
  cases m.walk path with
  | error error => exact ⟨fun h ↦ (nomatch h), fun h ↦ (nomatch h)⟩
  | ok node =>
    cases node with
    | file content => simp [Except.bind, Memory.content]
    | directory children => simp [Except.bind, Memory.content]

/-- The child of a name in the directory at the end of a path. -/
def child? (m : Memory) (path name : String) : Option String :=
  match m.walk path with
  | .ok (.directory children) => children.lookup name
  | .ok (.file _) => none
  | .error _ => none

/-- What is not there is told to be missing, by its whole path. -/
theorem not_found_of_reach (h : m.reach (segments path) = none) :
    let error := missing path (m.failure (segments path))
    m.list path = .error error ∧ m.read path = .error error := by
  intro error
  have hwalk : m.walk path = .error error := by rw [walk_eq, h]; rfl
  rw [list_eq, read_eq, hwalk]
  exact ⟨rfl, rfl⟩

/-- A path is listed and read as another one is, and its errors are told of the path itself. -/
structure Agrees (m : Memory) (path other : String) : Prop where
  list : m.list path = (m.list other).mapError (Error.named path)
  read : m.read path = (m.read other).mapError (Error.named path)

theorem agrees_of_walk (h : m.walk path = (m.walk other).mapError (Error.named path)) :
    m.Agrees path other where
  list := by
    rw [list_eq, list_eq, h]
    cases m.walk other <;> rfl
  read := by
    rw [read_eq, read_eq, h]
    cases m.walk other with
    | error error => rfl
    | ok node => cases node <;> rfl

/-- Only the names of a path matter, and not the slashes. -/
theorem agrees_of_segments (h : segments path = segments other) : m.Agrees path other := by
  refine agrees_of_walk ?_
  rw [walk_eq, walk_eq, h]
  cases m.reach (segments other) <;> rfl

/-- Two paths to one node agree. -/
theorem agrees_of_reach (h : m.reach (segments path) = some node)
    (hother : m.reach (segments other) = some node) : m.Agrees path other := by
  refine agrees_of_walk ?_
  rw [walk_eq_ok_iff.2 h, walk_eq_ok_iff.2 hother]
  rfl

end Memory

end ImageRegistry.Storage
