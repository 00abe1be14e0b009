import ImageRegistry.Link.Cache
import ImageRegistry.Proofs.Files.Children
import ImageRegistry.Proofs.Link.Parts
import ImageRegistry.Proofs.Text.Form
import ImageRegistry.Resolver.Files

/-!
# Link files stay beneath the root

Whatever a repository and a reference are called, the path of their link file is the path of the
root with names behind it. `confined` says what that comes to. The cache reads one link file, and so
does the resolver; to list a repository the resolver reads its directory and the link files that
stand there, and nothing else that a tree of files holds makes a difference to them. All of these
are beneath the root, and the cache writes no other file. It does make directories that are not
beneath the root: those on the way to the root that are missing (`add_makes_above`).

The names of link files in a directory come from the tree, so a name there must not hold a slash,
which no tree of files allows (`Files.Tree.Named`) and which adding links does not bring about.

Keys share a link file only if their repositories have the same parts and their references are
escaped alike. The file of one key would be on the way to the file of another one only if a part of
the other repository began with the mark of link files.
-/

namespace ImageRegistry

open Files (Beneath Component OnTheWay components)

namespace Link

variable {root repository reference identifier : String} {t u : Files.Tree}

/-- The path of the link file of a directory that has this name behind its mark. -/
def linkIn (directory : String) (name : List Char) : String :=
  String.ofList (push directory.toList (mark :: name))

theorem path_eq_linkIn (root repository reference : String) :
    path root repository reference = linkIn (directory root repository) (escaped reference) := rfl

/-! ### Paths beneath the root -/

theorem beneath_directory (root repository : String) :
    Beneath root.toUTF8 (directory root repository).toUTF8 := by
  refine Files.beneath_of_append ((parts repository).map encoded) ?_
  rw [components_directory, List.map_map]
  rfl

theorem beneath_linkIn (directory : String) {name : List Char} (h : '/' ∉ name) :
    Beneath directory.toUTF8 (linkIn directory name).toUTF8 := by
  have hslash : '/' ∉ mark :: name := by
    rw [List.mem_cons, not_or]
    exact ⟨by decide, h⟩
  refine Files.beneath_of_append [encoded (mark :: name)] ?_
  rw [linkIn, ← encoded, components_push_of_isName _ (isName_encoded (by simp [isSkipped, mark]))
    hslash, encoded_toList]
  rfl

theorem beneath_path (root repository reference : String) :
    Beneath root.toUTF8 (path root repository reference).toUTF8 := by
  rw [path_eq_linkIn]
  exact (beneath_directory root repository).trans
    (beneath_linkIn _ (slash_not_mem_escaped reference))

/-- A text whose bytes begin with the mark begins with it. -/
theorem exists_mark_of_head? {text : String}
    (h : (Text.byteList text.toUTF8).head? = some 0x40) : ∃ name, text.toList = mark :: name := by
  obtain ⟨rest, hbytes⟩ := List.head?_eq_some_iff.1 h
  refine ⟨Text.decodeLossy rest, ?_⟩
  rw [← Text.decodeLossy_byteList_toUTF8, hbytes, Text.decodeLossy_one rest (by decide)]
  rfl

/-- A slash of a text is one of its bytes. -/
theorem slash_not_mem_of_byteList {text : String} (h : 0x2f ∉ Text.byteList text.toUTF8) :
    '/' ∉ text.toList := by
  refine fun hslash ↦ h ?_
  rw [← String.ofList_toList (s := text), Text.byteList_toUTF8]
  exact List.mem_flatMap.2 ⟨'/', hslash, by decide⟩

/-- The link files of a directory are named with the mark. -/
theorem exists_eq_linkIn {directory file : String} {child : ByteArray × Files.Node}
    (hslash : 0x2f ∉ Text.byteList child.1)
    (h : Resolver.linkFile? directory child = some file) :
    ∃ name, '/' ∉ name ∧ file = linkIn directory name := by
  obtain ⟨bytes, node⟩ := child
  obtain ⟨content, text, -, rfl, hmark, rfl⟩ := linkFile?_eq_some_iff.1 h
  obtain ⟨name, hname⟩ := exists_mark_of_head? hmark
  have hplain := slash_not_mem_of_byteList hslash
  rw [hname, List.mem_cons, not_or] at hplain
  exact ⟨name, hplain.2, by rw [hname, linkIn]⟩

/-! ### What is read -/

theorem readText_congr {path : String} (h : t.read path.toUTF8 = u.read path.toUTF8) :
    t.readText path = u.readText path := by
  rw [Files.Tree.readText, h]
  rfl

/-- The cache reads a link file and nothing else. -/
theorem get_congr {c : Cache} (hroot : c.root = some root)
    (h : t.read (path root repository reference).toUTF8 =
      u.read (path root repository reference).toUTF8) :
    c.get t repository reference = c.get u repository reference := by
  have hstored : c.stored? t repository reference = c.stored? u repository reference := by
    rw [Cache.stored?, Cache.stored?, hroot]
    simp only [Option.bind_eq_bind, Option.bind_some, readText_congr h]
  rw [Cache.get, hstored, ← Cache.get]

theorem readIdentifiers_congr {path : String} (h : t.read path.toUTF8 = u.read path.toUTF8) :
    Resolver.readIdentifiers t path = Resolver.readIdentifiers u path := by
  rw [Resolver.readIdentifiers, readText_congr h, ← Resolver.readIdentifiers]

/-- To list a directory, it is read and the link files that stand there. -/
theorem readDirectory_congr {directory : String} (hnamed : t.Named)
    (hchildren : t.children directory.toUTF8 = u.children directory.toUTF8)
    (hread : ∀ name, '/' ∉ name →
      t.read (linkIn directory name).toUTF8 = u.read (linkIn directory name).toUTF8) :
    Resolver.readDirectory t directory = Resolver.readDirectory u directory := by
  rw [Resolver.readDirectory, Resolver.readDirectory, ← hchildren]
  cases hlisted : t.children directory.toUTF8 with
  | error failure => cases failure <;> rfl
  | ok children =>
    obtain ⟨place, -, -, -, hmem⟩ := Files.Tree.children_eq_ok hlisted
    have hfiles : (children.filterMap (Resolver.linkFile? directory)).mapM
          (Resolver.readIdentifiers t) =
        (children.filterMap (Resolver.linkFile? directory)).mapM (Resolver.readIdentifiers u) := by
      refine mapM_congr fun file hfile ↦ ?_
      obtain ⟨⟨bytes, node⟩, hchild, hlink⟩ := List.mem_filterMap.1 hfile
      have hslash : 0x2f ∉ Text.byteList bytes :=
        hnamed _ _ ((hmem bytes node).1 hchild) bytes (by simp)
      obtain ⟨name, hplain, rfl⟩ := exists_eq_linkIn hslash hlink
      exact readIdentifiers_congr (hread name hplain)
    simp only [hfiles]

/-! ### What is written -/

/-- To add a link, no file is written but its own, and directories are made on the way to it. -/
theorem changes_add {c : Cache} (hroot : c.root = some root) (t : Files.Tree)
    (repository reference identifier : String) :
    Files.Tree.Changes (OnTheWay · (path root repository reference).toUTF8)
      (· = (path root repository reference).toUTF8) t
      (c.add t repository reference identifier).2.2 := by
  rw [Cache.add, hroot]
  dsimp only
  split
  · exact .refl t
  · dsimp only
    have hparent : Files.Tree.Changes (OnTheWay · (path root repository reference).toUTF8)
        (· = (path root repository reference).toUTF8) t
        (t.ensureParent (path root repository reference).toUTF8).2 :=
      Files.Tree.changes_ensureParent t _
    rw [Cache.persist]
    split
    · next failure made hmade => rwa [hmade] at hparent
    · next made hmade =>
      rw [hmade] at hparent
      split
      · next written hwritten => exact hparent.trans (.write rfl hwritten (.refl written))
      · exact hparent

/-! ### Which keys share a file -/

theorem name_inj {part other : List Char} :
    Component.name (encoded part) = .name (encoded other) ↔ part = other := by
  rw [Component.name.injEq, encoded_inj]

/-- Two lists of parts begin alike as texts if they do so as components. -/
theorem prefix_of_map_name {l m : List (List Char)}
    (h : l.map (fun part ↦ Component.name (encoded part)) <+:
      m.map fun part ↦ Component.name (encoded part)) : l <+: m := by
  obtain ⟨front, hfront, hsame⟩ := List.prefix_map_iff.1 h
  rwa [(List.map_inj_right fun _ _ ↦ name_inj.1).1 hsame]

/-- Keys share a link file if the parts of their repositories and the names of their files are the
same. -/
theorem components_path_inj {s g : String} :
    components (path root repository reference).toUTF8 = components (path root s g).toUTF8 ↔
      parts repository = parts s ∧ escaped reference = escaped g := by
  rw [components_path, components_path, List.append_cancel_left_eq,
    List.map_inj_right fun _ _ ↦ name_inj.1, append_fileName_inj]

theorem path_inj {s g : String} : path root repository reference = path root s g ↔
    parts repository = parts s ∧ escaped reference = escaped g := by
  constructor
  · intro h
    have hcomponents : components (path root repository reference).toUTF8 =
        components (path root s g).toUTF8 := by rw [h]
    exact components_path_inj.1 hcomponents
  · rintro ⟨hparts, hname⟩
    rw [path, path, directory, directory, fileName, fileName, hparts, hname]

/-- A link file is on the way to another one only through a part that begins like its name. -/
theorem exists_mark_of_prefix {s g : String}
    (h : components (path root repository reference).toUTF8 <+: components (path root s g).toUTF8)
    (hne : components (path root repository reference).toUTF8 ≠ components (path root s g).toUTF8) :
    ∃ part ∈ Text.segments '/' s.toList, part.head? = some mark := by
  rw [components_path, components_path, List.prefix_append_right_inj] at h
  rcases List.prefix_concat_iff.1 (prefix_of_map_name h) with hsame | hparts
  · exact absurd (components_path_inj.2 (append_fileName_inj.1 hsame)) hne
  · have hmem : fileName reference ∈ parts s :=
      hparts.subset (List.mem_append_right _ List.mem_cons_self)
    exact ⟨fileName reference, (List.mem_filter.1 hmem).1, rfl⟩

/-! ### What a root confines -/

/-- How link files are confined to a root. -/
structure Confined (root : String) : Prop where
  /-- Behind the root come the parts of the repository that are not skipped, and the name of the
  file. -/
  path : ∀ repository reference : String, components (path root repository reference).toUTF8 =
    components root.toUTF8 ++
      (parts repository ++ [mark :: escaped reference]).map fun part ↦ .name (encoded part)
  /-- What comes behind the root stays below. -/
  names : ∀ repository reference : String,
    ∀ part ∈ parts repository ++ [mark :: escaped reference],
      part ≠ [] ∧ part ≠ ['.'] ∧ part ≠ ['.', '.'] ∧ '/' ∉ part
  /-- Beneath the root are the link file of a key, the directory of a repository, and whatever link
  files stand there. -/
  beneath : ∀ repository : String,
    (∀ reference, Beneath root.toUTF8 (Link.path root repository reference).toUTF8) ∧
    Beneath root.toUTF8 (directory root repository).toUTF8 ∧
    ∀ name, '/' ∉ name → Beneath root.toUTF8 (linkIn (directory root repository) name).toUTF8
  /-- The cache reads the link file, and nothing else of the tree. -/
  get : ∀ {c : Cache} {t u : Files.Tree}, c.root = some root →
    ∀ repository reference : String, t.read (Link.path root repository reference).toUTF8 =
      u.read (Link.path root repository reference).toUTF8 →
    c.get t repository reference = c.get u repository reference
  /-- So does the resolver for a reference. -/
  lookUp : ∀ {t u : Files.Tree} (repository reference : String), reference ≠ "" →
    t.read (Link.path root repository reference).toUTF8 =
      u.read (Link.path root repository reference).toUTF8 →
    Resolver.lookUp t root repository reference = Resolver.lookUp u root repository reference
  /-- To list a repository the resolver reads its directory and the link files there. -/
  listing : ∀ {t u : Files.Tree} (repository : String), t.Named →
    t.children (directory root repository).toUTF8 =
      u.children (directory root repository).toUTF8 →
    (∀ name, '/' ∉ name → t.read (linkIn (directory root repository) name).toUTF8 =
      u.read (linkIn (directory root repository) name).toUTF8) →
    Resolver.lookUp t root repository "" = Resolver.lookUp u root repository ""
  /-- The link file is written, and directories are made on the way to it, which are beneath the
  root or on the way to the root. None of their names holds a slash. -/
  written : ∀ {c : Cache} (t : Files.Tree), c.root = some root →
    ∀ repository reference identifier : String,
      Files.Tree.Changes
        (fun path ↦ OnTheWay path (Link.path root repository reference).toUTF8 ∧
          (Beneath root.toUTF8 path ∨ OnTheWay path root.toUTF8))
        (· = (Link.path root repository reference).toUTF8) t
        (c.add t repository reference identifier).2.2 ∧
      (t.Named → (c.add t repository reference identifier).2.2.Named)
  /-- Keys that share a file, as the path is written and by its components. -/
  shared : ∀ r f s g : String,
    (Link.path root r f = Link.path root s g ↔ parts r = parts s ∧ escaped f = escaped g) ∧
    (components (Link.path root r f).toUTF8 = components (Link.path root s g).toUTF8 ↔
      parts r = parts s ∧ escaped f = escaped g)
  /-- A file that is on the way to another one. -/
  above : ∀ r f s g : String,
    components (Link.path root r f).toUTF8 <+: components (Link.path root s g).toUTF8 →
    components (Link.path root r f).toUTF8 ≠ components (Link.path root s g).toUTF8 →
    ∃ part ∈ Text.segments '/' s.toList, part.head? = some mark

theorem names_of_mem {part : List Char} (h : part ∈ parts repository ++ [fileName reference]) :
    part ≠ [] ∧ part ≠ ['.'] ∧ part ≠ ['.', '.'] ∧ '/' ∉ part := by
  rcases List.mem_append.1 h with h | h
  · have hskipped : isSkipped part = false := by simpa using (List.mem_filter.1 h).2
    rw [isSkipped, Bool.or_eq_false_iff, Bool.or_eq_false_iff, decide_eq_false_iff_not,
      decide_eq_false_iff_not, decide_eq_false_iff_not] at hskipped
    obtain ⟨⟨hempty, hhere⟩, hup⟩ := hskipped
    exact ⟨hempty, hhere, hup, slash_not_mem_of_mem_parts h⟩
  · obtain rfl := List.mem_singleton.1 h
    have hne (other : List Char) (hother : other.head? ≠ some mark) : fileName reference ≠ other :=
      fun hsame ↦ hother (by rw [← hsame]; rfl)
    exact ⟨hne _ (by decide), hne _ (by decide), hne _ (by decide),
      slash_not_mem_fileName reference⟩

theorem confined (root : String) : Confined root where
  path repository reference := components_path root repository reference
  names _ _ _ hpart := names_of_mem hpart
  beneath repository := ⟨beneath_path root repository, beneath_directory root repository,
    fun _ hslash ↦ (beneath_directory root repository).trans (beneath_linkIn _ hslash)⟩
  get hroot _ _ hread := get_congr hroot hread
  lookUp repository reference hne hread := by
    have hreference : ¬ reference.isEmpty = true := fun hempty ↦ hne (String.isEmpty_iff.1 hempty)
    rw [Resolver.lookUp, Resolver.lookUp, if_neg hreference, if_neg hreference]
    exact readIdentifiers_congr hread
  listing repository hnamed hchildren hread := by
    have hreference : "".isEmpty = true := rfl
    rw [Resolver.lookUp, Resolver.lookUp, if_pos hreference, if_pos hreference]
    exact readDirectory_congr hnamed hchildren hread
  written t hroot repository reference identifier := by
    have hchanges := changes_add hroot t repository reference identifier
    exact ⟨hchanges.mono fun path hpath ↦
      ⟨hpath, (beneath_path root repository reference).of_onTheWay hpath⟩, hchanges.named⟩
  shared _ _ _ _ := ⟨path_inj, components_path_inj⟩
  above _ _ _ _ := exists_mark_of_prefix

/-- On the way to the root `a/b` the directory `a` is made, which is not beneath it. -/
theorem add_makes_above :
    ¬ ∀ (root repository reference identifier : String) (t : Files.Tree) (path : ByteArray),
      t.isDirectory path = false →
      ((Cache.empty (some root)).add t repository reference identifier).2.2.isDirectory path =
        true →
      Beneath root.toUTF8 path := by
  intro hbeneath
  have hmade : ((Cache.empty (some "a/b")).add ∅ "app" "v1" "bafyapp").2.2.isDirectory
      "a".toUTF8 = true := by decide +kernel
  have hprefix := hbeneath "a/b" "app" "v1" "bafyapp" ∅ "a".toUTF8 (by decide +kernel) hmade
  exact absurd hprefix.onTheWay.length_le (by decide)

end Link

end ImageRegistry
