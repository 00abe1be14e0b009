import ImageRegistry.Proofs.Storage.Encoding
import ImageRegistry.Proofs.Storage.Path

/-!
# What an identifier stands for

An insertion writes its node under its identifier, whatever is there already. As long as the hash
has no collision among the bytes that a run hashes, and no name holds what ends an entry, an
identifier that is given twice is given for the same node (`eq_of_mem_made`). So nothing that is
stored changes, the tree only grows (`extends_run`), and what was listed or read once is the same
ever after.

The condition on names cannot be left out: with a name that holds the end of an entry, a directory
of one child has the bytes of a directory of two, and takes its place (`addressed_of_run_forged`).
-/

namespace ImageRegistry.Storage.Memory

variable {m n : Memory} {node : Node} {id path : String} {names : List String}
  {before after : List Insertion}

/-! ### Trees that grow -/

/-- What is stored in the one tree is stored in the other one. -/
def Extends (m n : Memory) : Prop :=
  ∀ {id node}, m.nodes.get? id = some node → n.nodes.get? id = some node

theorem Extends.descend (h : m.Extends n) {last : Node} (hlast : m.descend node names = some last) :
    n.descend node names = some last := by
  induction names generalizing node with
  | nil => exact hlast
  | cons name rest ih =>
    cases node with
    | file content => cases hlast
    | directory children =>
      rw [Memory.descend] at hlast ⊢
      obtain ⟨id, hid, hlast⟩ := Option.bind_eq_some_iff.1 hlast
      obtain ⟨child, hchild, hlast⟩ := Option.bind_eq_some_iff.1 hlast
      exact Option.bind_eq_some_iff.2
        ⟨id, hid, Option.bind_eq_some_iff.2 ⟨child, h hchild, ih hlast⟩⟩

theorem Extends.walk (h : m.Extends n) (hwalk : m.walk path = .ok node) :
    n.walk path = .ok node := by
  rw [walk_eq_ok_iff, reach_eq_some_iff] at hwalk ⊢
  obtain ⟨id, rest, top, hnames, htop, hdescend⟩ := hwalk
  exact ⟨id, rest, top, hnames, h htop, h.descend hdescend⟩

/-- The entries of a node whose children are all stored do not become more. -/
theorem Extends.entries (h : m.Extends n) (hholds : m.Holds node) :
    n.entries node = m.entries node := by
  cases node with
  | file content => rfl
  | directory children =>
    refine List.filterMap_congr fun c hc ↦ ?_
    obtain ⟨child, hchild⟩ := hholds c hc
    rw [hchild, h hchild]

theorem Extends.list (h : m.Extends n) (hsound : m.Sound) {entries : List Entry}
    (hlist : m.list path = .ok entries) : n.list path = .ok entries := by
  obtain ⟨node, hwalk, rfl⟩ := list_eq_ok_iff.1 hlist
  exact list_eq_ok_iff.2 ⟨node, h.walk hwalk, h.entries (hsound.holds_of_walk hwalk)⟩

theorem Extends.read (h : m.Extends n) {bytes : ByteArray} (hread : m.read path = .ok bytes) :
    n.read path = .ok bytes :=
  read_eq_ok_iff.2 (h.walk (read_eq_ok_iff.1 hread))

/-! ### Identifiers that are given -/

/-- The hash tells apart all the bytes that are hashed for these nodes. -/
def CollisionFree (made : List (String × Node)) : Prop :=
  ∀ a ∈ made, ∀ b ∈ made, Digest.hashHex a.2.text = Digest.hashHex b.2.text → a.2.text = b.2.text

/-- The children of what is stored were stored before, and go by their identifiers. -/
theorem isNamed_of_mem_made (hsound : m.Sound) {insertions : List Insertion}
    (h : (id, node) ∈ m.made insertions) : node.IsNamed := by
  induction insertions generalizing m with
  | nil => cases h
  | cons i rest ih =>
    rw [made_cons, List.mem_append] at h
    rcases h with h | h
    · rcases m.take_cases i with ⟨hholds, -, hmade⟩ | ⟨-, hmade⟩
      · rw [hmade, List.mem_singleton, Prod.mk.injEq] at h
        rw [h.2]
        cases hnode : i.node with
        | file content => trivial
        | directory children =>
          intro c hc
          rw [hnode] at hholds
          obtain ⟨child, hchild⟩ := hholds c hc
          exact ⟨child, hsound.named hchild⟩
      · rw [hmade] at h
        cases h
    · exact ih (hsound.take i) h

/-- What is given one identifier has the same bytes. -/
theorem text_eq_of_mem_made {insertions : List Insertion}
    (hfree : CollisionFree (made ∅ insertions)) {a b : Node} (ha : (id, a) ∈ made ∅ insertions)
    (hb : (id, b) ∈ made ∅ insertions) : a.text = b.text :=
  hfree _ ha _ hb ((eq_id_of_mem_made ha).symm.trans (eq_id_of_mem_made hb))

/-- Plain nodes that are given one identifier are one node. -/
theorem eq_of_mem_made {insertions : List Insertion} (hfree : CollisionFree (made ∅ insertions))
    {a b : Node} (ha : (id, a) ∈ made ∅ insertions) (hb : (id, b) ∈ made ∅ insertions)
    (hplain : a.IsPlain) (hplain' : b.IsPlain) : a = b :=
  Node.text_inj hplain hplain' (isNamed_of_mem_made sound_empty ha)
    (isNamed_of_mem_made sound_empty hb) (text_eq_of_mem_made hfree ha hb)

/-- When no identifier is given for two nodes, nothing that is stored is written over. -/
theorem extends_run (hone : ∀ {id a b}, (id, a) ∈ made ∅ (before ++ after) →
      (id, b) ∈ made ∅ (before ++ after) → a = b) :
    (run ∅ before).Extends (run ∅ (before ++ after)) := by
  induction after using List.reverseRecOn with
  | nil =>
    intro id node hnode
    rwa [List.append_nil]
  | append_singleton after i ih =>
    rw [← List.append_assoc] at hone ⊢
    rw [made_append] at hone
    intro id node hnode
    have hkept :=
      ih (fun ha hb ↦ hone (List.mem_append_left _ ha) (List.mem_append_left _ hb)) hnode
    rw [run_concat]
    rcases (run ∅ (before ++ after)).take_cases i with ⟨-, htake, hmade⟩ | ⟨htake, -⟩
    · rw [htake, get?_store]
      split
      · next hid =>
        have hnew : (id, i.node) ∈ (run ∅ (before ++ after)).made [i] := by
          rw [hmade, hid]
          exact List.mem_cons_self
        rw [hone (List.mem_append_right _ hnew)
          (List.mem_append_left _ (mem_made_of_get?_run hkept))]
      · exact hkept
    · rwa [htake]

/-- As long as the hash has no collision among the bytes that a run hashes, a file and a directory
are never given one identifier, and neither are two nodes with plain names; and when all names are
plain, what a path lists or reads at any time is what it lists or reads ever after. -/
theorem addressed_of_run (before after : List Insertion)
    (hfree : CollisionFree (made ∅ (before ++ after))) :
    (∀ id content children, (id, .file content) ∈ made ∅ (before ++ after) →
      (id, .directory children) ∉ made ∅ (before ++ after)) ∧
    (∀ id a b, (id, a) ∈ made ∅ (before ++ after) → (id, b) ∈ made ∅ (before ++ after) →
      a.IsPlain → b.IsPlain → a = b) ∧
    ((∀ c ∈ made ∅ (before ++ after), c.2.IsPlain) → ∀ path,
      (∀ entries, (run ∅ before).list path = .ok entries →
        (run ∅ (before ++ after)).list path = .ok entries) ∧
      ∀ bytes, (run ∅ before).read path = .ok bytes →
        (run ∅ (before ++ after)).read path = .ok bytes) := by
  refine ⟨fun id content children hfile hdirectory ↦ ?_, fun id a b ↦ eq_of_mem_made hfree,
    fun hplain path ↦ ?_⟩
  · exact fileText_ne_directoryText content children (text_eq_of_mem_made hfree hfile hdirectory)
  · have hextends : (run ∅ before).Extends (run ∅ (before ++ after)) :=
      extends_run fun ha hb ↦ eq_of_mem_made hfree ha hb (hplain _ ha) (hplain _ hb)
    exact ⟨fun entries ↦ hextends.list (sound_run before), fun bytes ↦ hextends.read⟩

/-- When all identifiers are different, the hash has no collision. -/
theorem collisionFree_of_nodup {insertions : List Insertion}
    (h : ((made ∅ insertions).map Prod.fst).Nodup) : CollisionFree (made ∅ insertions) := by
  intro a ha b hb hhash
  have hid : a.1 = b.1 :=
    (eq_id_of_mem_made ha).trans (hhash.trans (eq_id_of_mem_made hb).symm)
  rw [List.inj_on_of_nodup_map h ha hb hid]

/-! ### A file in two directories -/

section Directories

variable (content : ByteArray) (children more : List (String × String))

/-- A file, and then two directories of it. -/
abbrev twice : List Insertion := [.file content, .directory children, .directory more]

/-- All three are stored, one after the other. -/
theorem stored_twice (hchildren : Ordered.Increasing Prod.fst children)
    (hmore : Ordered.Increasing Prod.fst more)
    (hfiles : ∀ c ∈ children, c.2 = (Node.file content).id)
    (hfiles' : ∀ c ∈ more, c.2 = (Node.file content).id) :
    let file := Node.file content
    let first := Node.directory children
    let second := Node.directory more
    run ∅ [.file content, .directory children] = (store ∅ file).store first ∧
      run ∅ (twice content children more) = ((store ∅ file).store first).store second ∧
      made ∅ (twice content children more) =
        [(file.id, file), (first.id, first), (second.id, second)] := by
  intro file first second
  have hfirst : (store ∅ file).Holds first := fun c hc ↦ by
    rw [hfiles c hc, get?_store, if_pos rfl]
    exact ⟨file, rfl⟩
  have hsecond : (store ∅ file).Holds second := fun c hc ↦ by
    rw [hfiles' c hc, get?_store, if_pos rfl]
    exact ⟨file, rfl⟩
  have hsecond := hsecond.store first
  refine ⟨?_, ?_, ?_⟩
  · rw [run_file, run_directory hchildren hfirst, run_nil]
  · rw [run_file, run_directory hchildren hfirst, run_directory hmore hsecond, run_nil]
  · rw [made_file, made_directory hchildren hfirst, made_directory hmore hsecond, made_nil]

/-- The listing of a directory of which all children are one file. -/
theorem list_of_files {content children} (hsound : m.Sound)
    (hpath : m.nodes.get? path = some (.directory children))
    (hfiles : ∀ c ∈ children, m.nodes.get? c.2 = some (.file content)) :
    m.list path = .ok (children.map fun c ↦ ⟨c.1, content.size, .file, c.2⟩) := by
  refine list_eq_ok_iff.2 ⟨_, walk_of_get? hsound hpath, ?_⟩
  rw [entries, ← List.filterMap_eq_map]
  refine List.filterMap_congr fun c hc ↦ ?_
  rw [hfiles c hc]
  rfl

end Directories

theorem id_file_x : (Node.file "x".toUTF8).id =
    "24e5fa83ea3d78ba97ff36665723f0df9e3d179e110965a34b679ad5ad27eaab" := by decide +kernel

/-- A directory is listed as before when another one is stored beside it. -/
theorem addressed_of_run_beside :
    let id := "24e5fa83ea3d78ba97ff36665723f0df9e3d179e110965a34b679ad5ad27eaab"
    let path := "100580226d16ffe7dcd0e72090f7610ef46833169799353efe1ed127573cf24d"
    let before : List Insertion := [.file "x".toUTF8, .directory [("a", id)]]
    let after : List Insertion := [.directory []]
    (run ∅ (before ++ after)).list path = .ok [⟨"a", 1, .file, id⟩] := by
  intro id path before after
  have hfile : (Node.file "x".toUTF8).id = id := id_file_x
  have hdirectory : (Node.directory [("a", id)]).id = path := by decide +kernel +revert
  have hempty : (Node.directory []).id =
      "4b66bf93b3932a9539880b2421e35019af9daf84363a0246280ffcac173b2678" := by
    decide +kernel +revert
  obtain ⟨hrun, -, hmade⟩ := stored_twice "x".toUTF8 [("a", id)] [] (List.pairwise_singleton _ _)
    List.Pairwise.nil (fun c hc ↦ by rw [List.mem_singleton.1 hc, hfile]) fun c hc ↦ by cases hc
  have hlist : (run ∅ before).list path =
      .ok ([("a", id)].map fun c ↦ ⟨c.1, "x".toUTF8.size, .file, c.2⟩) := by
    refine list_of_files (sound_run before) ?_ fun c hc ↦ ?_
    · rw [hrun, get?_store, if_pos hdirectory]
    · have hne : (Node.directory [("a", id)]).id ≠ id := by rw [hdirectory]; decide
      rw [List.mem_singleton.1 hc, hrun, get?_store, if_neg hne, get?_store, if_pos hfile]
  have hfree : CollisionFree (made ∅ (before ++ after)) := by
    refine collisionFree_of_nodup ?_
    show ((made ∅ (twice "x".toUTF8 [("a", id)] [])).map Prod.fst).Nodup
    rw [hmade, List.map_cons, List.map_cons, List.map_singleton, hfile, hdirectory, hempty]
    decide
  have hplain : ∀ c ∈ made ∅ (before ++ after), c.2.IsPlain := by
    show ∀ c ∈ made ∅ (twice "x".toUTF8 [("a", id)] []), c.2.IsPlain
    rw [hmade]
    simp only [List.forall_mem_cons, List.not_mem_nil, false_implies, implies_true, and_true]
    refine ⟨trivial, fun c hc ↦ ?_, fun c hc ↦ by cases hc⟩
    rw [List.mem_singleton.1 hc]
    exact isPlain_of_not_mem (by decide)
  obtain ⟨-, -, hstable⟩ := addressed_of_run before after hfree
  exact (hstable hplain path).1 _ hlist

/-- A name that holds the end of an entry makes one child of two. -/
theorem text_forged (id : String) :
    (Node.directory [("a", id), ("b", id)]).text =
      (Node.directory [("a\x00" ++ id ++ "\nb", id)]).text := by
  rw [Node.text, Node.text, directoryText_eq, directoryText_eq]
  simp [entryText, entryEnd]

/-- So the directory that is stored last takes the place of the first one, which is listed otherwise
from then on. -/
theorem addressed_of_run_forged :
    let id := "24e5fa83ea3d78ba97ff36665723f0df9e3d179e110965a34b679ad5ad27eaab"
    let forged := "a\x00" ++ id ++ "\nb"
    let path := "cb5830824575b6847ec98b2d6e3e23567255f5788730d2b40401aec70c8ac6ad"
    let before : List Insertion := [.file "x".toUTF8, .directory [("a", id), ("b", id)]]
    let after : List Insertion := [.directory [(forged, id)]]
    CollisionFree (made ∅ (before ++ after)) ∧
      (run ∅ before).list path = .ok [⟨"a", 1, .file, id⟩, ⟨"b", 1, .file, id⟩] ∧
      (run ∅ (before ++ after)).list path = .ok [⟨forged, 1, .file, id⟩] := by
  intro id forged path before after
  have hfile : (Node.file "x".toUTF8).id = id := id_file_x
  have hfirst : (Node.directory [("a", id), ("b", id)]).id = path := by decide +kernel +revert
  have htext : (Node.directory [(forged, id)]).text =
      (Node.directory [("a", id), ("b", id)]).text := (text_forged id).symm
  have hsecond : (Node.directory [(forged, id)]).id = path :=
    (congrArg Digest.hashHex htext).trans hfirst
  have hne : path ≠ id := by decide
  obtain ⟨hrun, hafter, hmade⟩ := stored_twice "x".toUTF8 [("a", id), ("b", id)] [(forged, id)]
    (List.pairwise_pair.2 (by decide)) (List.pairwise_singleton _ _)
    (fun c hc ↦ by rcases List.mem_pair.1 hc with rfl | rfl <;> exact hfile.symm)
    fun c hc ↦ by rw [List.mem_singleton.1 hc, hfile]
  refine ⟨?_, ?_, ?_⟩
  · have hmem (a : String × Node) (ha : a ∈ made ∅ (before ++ after)) :
        a.2 = .file "x".toUTF8 ∨ a.2.text = (Node.directory [("a", id), ("b", id)]).text := by
      have ha : a ∈ made ∅ (twice "x".toUTF8 [("a", id), ("b", id)] [(forged, id)]) := ha
      rw [hmade, List.mem_cons, List.mem_pair] at ha
      rcases ha with rfl | rfl | rfl
      · exact Or.inl rfl
      · exact Or.inr rfl
      · exact Or.inr htext
    intro a ha b hb hhash
    rcases hmem a ha with hfile' | htext' <;> rcases hmem b hb with hother | hother
    · rw [hfile', hother]
    · rw [hfile', hother] at hhash
      exact absurd (hfirst.symm.trans (hhash.symm.trans hfile)) hne
    · rw [htext', hother] at hhash
      exact absurd (hfirst.symm.trans (hhash.trans hfile)) hne
    · rw [htext', hother]
  · have hlist : (run ∅ before).list path =
        .ok ([("a", id), ("b", id)].map fun c ↦ ⟨c.1, "x".toUTF8.size, .file, c.2⟩) := by
      refine list_of_files (sound_run before) ?_ fun c hc ↦ ?_
      · rw [hrun, get?_store, if_pos hfirst]
      · have hid : c.2 = id := by rcases List.mem_pair.1 hc with rfl | rfl <;> rfl
        rw [hid, hrun, get?_store, hfirst, if_neg hne, get?_store, if_pos hfile]
    exact hlist
  · have hlist : (run ∅ (twice "x".toUTF8 [("a", id), ("b", id)] [(forged, id)])).list path =
        .ok ([(forged, id)].map fun c ↦ ⟨c.1, "x".toUTF8.size, .file, c.2⟩) := by
      refine list_of_files (sound_run _) ?_ fun c hc ↦ ?_
      · rw [hafter, get?_store, if_pos hsecond]
      · rw [List.mem_singleton.1 hc, hafter, get?_store, hsecond, if_neg hne, get?_store, hfirst,
          if_neg hne, get?_store, if_pos hfile]
    exact hlist

end ImageRegistry.Storage.Memory
