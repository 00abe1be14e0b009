import ImageRegistry.Proofs.Collection.Table
import ImageRegistry.Storage.Memory
import Mathlib.Data.List.Induction

/-!
# Runs of a tree in memory

Files and directories are inserted one after the other, and an insertion that is refused changes
nothing. `take_cases` says once what an insertion does; from it come the three facts that hold at
the end of every run (`Sound`): a node is stored under the identifier that its own bytes make, the
children of a stored directory are stored, and they stand in increasing order of their names.

`made` keeps what a run was told to be stored, with the identifiers that it gave for it. A node can
only be found under an identifier that was given for it (`mem_made_of_get?_run`).
-/

namespace ImageRegistry.Storage.Memory

/-! ### Nodes -/

/-- The bytes that name a node. -/
def Node.text : Node → ByteArray
  | file content => fileText content
  | directory children => directoryText children

/-- The identifier of a node. -/
def Node.id (node : Node) : String := Digest.hashHex node.text

/-- All children of a node are stored. -/
def Holds (m : Memory) : Node → Prop
  | .file _ => True
  | .directory children => ∀ c ∈ children, ∃ node, m.nodes.get? c.2 = some node

/-! ### Insertions -/

/-- What is to be stored. -/
inductive Insertion where
  | file (content : ByteArray)
  | directory (children : List (String × String))

/-- The node that an insertion stores. -/
def Insertion.node : Insertion → Node
  | file content => .file content
  | directory children => .directory (childTable children)

/-- Stores a file or a directory: its identifier, and the tree with it. -/
def insert (m : Memory) : Insertion → Except Error (String × Memory)
  | .file content => .ok (m.insertFile content)
  | .directory children => m.insertDirectory children

/-- The tree with a node under its identifier. -/
def store (m : Memory) (node : Node) : Memory := ⟨m.nodes.insert node.id node⟩

variable {m t : Memory} {i : Insertion} {id : String} {node : Node}

theorem get?_store (m : Memory) (node : Node) (id : String) :
    (m.store node).nodes.get? id = if node.id = id then some node else m.nodes.get? id :=
  Table.get?_insert _ _ _ _

/-- What is stored is the node of the insertion, if its children are stored. -/
theorem insert_eq_ok_iff :
    m.insert i = .ok (id, t) ↔ m.Holds i.node ∧ id = i.node.id ∧ t = m.store i.node := by
  have hgiven : (Except.ok (i.node.id, m.store i.node) : Except Error _) = .ok (id, t) ↔
      id = i.node.id ∧ t = m.store i.node := by
    rw [Except.ok.injEq, Prod.mk.injEq, eq_comm, eq_comm (a := t)]
  cases i with
  | file content => exact hgiven.trans (and_iff_right trivial).symm
  | directory children =>
    show m.insertDirectory children = _ ↔ _
    rw [insertDirectory]
    cases hfind : (childTable children).find? fun c ↦ !m.nodes.contains c.2 with
    | some child =>
      have hchild : m.nodes.get? child.2 = none := by
        simpa [Table.contains] using List.find?_some hfind
      constructor
      · rintro ⟨⟩
      · rintro ⟨hholds, -⟩
        obtain ⟨node, hnode⟩ := hholds child (List.mem_of_find?_eq_some hfind)
        cases hchild.symm.trans hnode
    | none =>
      have hholds : m.Holds (.directory (childTable children)) := by
        intro c hc
        have hstored := List.find?_eq_none.1 hfind c hc
        exact Table.contains_eq_true_iff.1 (by simpa using hstored)
      exact hgiven.trans (and_iff_right hholds).symm

/-! ### Runs -/

/-- The tree after an insertion, which may be refused. -/
def take (m : Memory) (i : Insertion) : Memory :=
  match m.insert i with
  | .ok (_, t) => t
  | .error _ => m

/-- The tree after some insertions. -/
def run (m : Memory) (insertions : List Insertion) : Memory := insertions.foldl take m

/-- What a run is told to be stored, each node with the identifier that is given for it. -/
def made (m : Memory) : List Insertion → List (String × Node)
  | [] => []
  | i :: rest =>
    match m.insert i with
    | .ok (id, t) => (id, i.node) :: t.made rest
    | .error _ => m.made rest

@[simp] theorem run_nil (m : Memory) : m.run [] = m := rfl

@[simp] theorem made_nil (m : Memory) : m.made [] = [] := rfl

theorem run_append (m : Memory) (before after : List Insertion) :
    m.run (before ++ after) = (m.run before).run after := List.foldl_append

theorem run_concat (m : Memory) (insertions : List Insertion) (i : Insertion) :
    m.run (insertions ++ [i]) = (m.run insertions).take i := m.run_append insertions [i]

/-- An insertion stores its node and gives the identifier of it, or nothing happens. -/
theorem take_cases (m : Memory) (i : Insertion) :
    (m.Holds i.node ∧ m.take i = m.store i.node ∧ m.made [i] = [(i.node.id, i.node)]) ∨
      (m.take i = m ∧ m.made [i] = []) := by
  rw [take, made]
  rcases hinsert : m.insert i with error | ⟨id, t⟩
  · exact Or.inr ⟨rfl, rfl⟩
  · obtain ⟨hholds, rfl, rfl⟩ := insert_eq_ok_iff.1 hinsert
    exact Or.inl ⟨hholds, rfl, rfl⟩

section Stored

variable {children : List (String × String)} (hordered : Ordered.Increasing Prod.fst children)
  (h : m.Holds (.directory children)) (content : ByteArray) (rest : List Insertion)

theorem run_file : m.run (.file content :: rest) = (m.store (.file content)).run rest := rfl

theorem made_file : m.made (.file content :: rest) =
    ((Node.file content).id, .file content) :: (m.store (.file content)).made rest := rfl

include hordered in
/-- Children that are in order are stored as they are. -/
theorem node_directory : (Insertion.directory children).node = .directory children :=
  congrArg Node.directory (Ordered.ofList_of_increasing hordered)

include hordered h

theorem insert_directory : m.insert (.directory children) =
    .ok ((Node.directory children).id, m.store (.directory children)) := by
  rw [insert_eq_ok_iff, node_directory hordered]
  exact ⟨h, rfl, rfl⟩

theorem run_directory :
    m.run (.directory children :: rest) = (m.store (.directory children)).run rest := by
  rw [run, List.foldl_cons, take, insert_directory hordered h]
  rfl

theorem made_directory : m.made (.directory children :: rest) =
    ((Node.directory children).id, .directory children) ::
      (m.store (.directory children)).made rest := by
  rw [made, insert_directory hordered h, node_directory hordered]

end Stored

theorem made_cons (m : Memory) (i : Insertion) (rest : List Insertion) :
    m.made (i :: rest) = m.made [i] ++ (m.take i).made rest := by
  rw [made, made, take]
  rcases m.insert i with error | ⟨id, t⟩ <;> rfl

theorem made_append (m : Memory) (before after : List Insertion) :
    m.made (before ++ after) = m.made before ++ (m.run before).made after := by
  induction before generalizing m with
  | nil => rfl
  | cons i rest ih =>
    rw [List.cons_append, made_cons m i (rest ++ after), ih, made_cons m i rest, List.append_assoc]
    rfl

/-! ### What holds at the end of a run -/

/-- What holds of every tree that insertions make. -/
structure Sound (m : Memory) : Prop where
  /-- A node is stored under its own identifier. -/
  named : ∀ {id node}, m.nodes.get? id = some node → id = node.id
  /-- The children of a stored node are stored. -/
  closed : ∀ {id node}, m.nodes.get? id = some node → m.Holds node
  /-- The children of a stored directory are in order, each name once. -/
  ordered : ∀ {id children}, m.nodes.get? id = some (.directory children) →
    Ordered.Increasing Prod.fst children

theorem sound_empty : Sound ∅ where
  named h := by cases h
  closed h := by cases h
  ordered h := by cases h

/-- What is stored stays stored, as this node or as another one. -/
theorem Holds.store (h : m.Holds node) (other : Node) : (m.store other).Holds node := by
  cases node with
  | file content => trivial
  | directory children =>
    intro c hc
    rw [get?_store]
    split
    · exact ⟨other, rfl⟩
    · exact h c hc

theorem Sound.store (h : m.Sound) (hholds : m.Holds node)
    (hordered : ∀ children, node = .directory children → Ordered.Increasing Prod.fst children) :
    (m.store node).Sound where
  named {id found} hget := by
    rw [get?_store] at hget
    split at hget
    · next hid =>
      obtain rfl := Option.some.inj hget
      exact hid.symm
    · exact h.named hget
  closed {id found} hget := by
    rw [get?_store] at hget
    split at hget
    · obtain rfl := Option.some.inj hget
      exact hholds.store node
    · exact (h.closed hget).store node
  ordered {id children} hget := by
    rw [get?_store] at hget
    split at hget
    · exact hordered children (Option.some.inj hget)
    · exact h.ordered hget

theorem increasing_of_node (i : Insertion) {children : List (String × String)}
    (h : i.node = .directory children) : Ordered.Increasing Prod.fst children := by
  cases i with
  | file content => cases h
  | directory given =>
    cases h
    exact Ordered.increasing_ofList Prod.fst given

theorem Sound.take (h : m.Sound) (i : Insertion) : (m.take i).Sound := by
  rcases m.take_cases i with ⟨hholds, htake, -⟩ | ⟨htake, -⟩
  · rw [htake]
    exact h.store hholds fun children ↦ increasing_of_node i
  · rwa [htake]

theorem sound_run (insertions : List Insertion) : (run ∅ insertions).Sound := by
  induction insertions using List.reverseRecOn with
  | nil => exact sound_empty
  | append_singleton insertions i ih =>
    rw [run_concat]
    exact ih.take i

/-- The identifier that is given for a node is that of the node. -/
theorem eq_id_of_mem_made {insertions : List Insertion} (h : (id, node) ∈ m.made insertions) :
    id = node.id := by
  induction insertions generalizing m with
  | nil => cases h
  | cons i rest ih =>
    rw [made_cons, List.mem_append] at h
    rcases h with h | h
    · rcases m.take_cases i with ⟨-, -, hmade⟩ | ⟨-, hmade⟩
      · rw [hmade, List.mem_singleton, Prod.mk.injEq] at h
        rw [h.1, h.2]
      · rw [hmade] at h
        cases h
    · exact ih h

/-- What is found was inserted. -/
theorem mem_made_of_get?_run {insertions : List Insertion}
    (h : (run ∅ insertions).nodes.get? id = some node) : (id, node) ∈ made ∅ insertions := by
  induction insertions using List.reverseRecOn with
  | nil => cases h
  | append_singleton insertions i ih =>
    rw [run_concat] at h
    rw [made_append, List.mem_append]
    rcases (run ∅ insertions).take_cases i with ⟨-, htake, hmade⟩ | ⟨htake, -⟩
    · rw [htake, get?_store] at h
      split at h
      · next hid =>
        obtain rfl := Option.some.inj h
        rw [hmade, hid]
        exact Or.inr List.mem_cons_self
      · exact Or.inl (ih h)
    · rw [htake] at h
      exact Or.inl (ih h)

end ImageRegistry.Storage.Memory
