import ImageRegistry.Proofs.Action
import ImageRegistry.Proofs.Storage.Listing
import ImageRegistry.Proofs.Text.Blank
import ImageRegistry.Resolver.Storage

/-!
# What is published in a tree in memory

Everything that is put into a tree in memory can be found again: by listing the directories, by
paths through them, and by a resolver that looks for a reference in the directory of its repository
(`run_ask_ofStorage`). A listing never fails there but for a path that is not found, which to a
resolver means that there is nothing, so a resolver of such a storage does not fail at all.
-/

namespace ImageRegistry

open ImageRegistry.Action Storage

/-! ### Roots -/

namespace Storage.Memory

/-- A text of slashes names nothing. -/
theorem segments_of_slashes {slashes : List Char} (h : ∀ c ∈ slashes, c = '/') :
    segments (String.ofList slashes) = [] := by
  induction slashes with
  | nil => exact segments_empty
  | cons c rest ih =>
    have hc := h c List.mem_cons_self
    have htext : String.ofList (c :: rest) = "" ++ "/" ++ String.ofList rest := by
      rw [← String.toList_inj, hc]
      simp
    rw [htext, segments_slash, segments_empty, ih fun d hd ↦ h d (List.mem_cons_of_mem c hd)]
    rfl

/-- Slashes at the end of a text do not change its names. -/
theorem segments_dropTrailing (text : String) :
    segments (String.ofList (Text.dropTrailing (· = '/') text.toList)) = segments text := by
  obtain ⟨slashes, htext, hslashes⟩ := Text.exists_eq_dropTrailing (· = '/') text.toList
  generalize Text.dropTrailing (· = '/') text.toList = kept at htext ⊢
  cases slashes with
  | nil =>
    rw [List.append_nil] at htext
    rw [← htext, String.ofList_toList]
  | cons c rest =>
    have hc : c = '/' := of_decide_eq_true (hslashes c List.mem_cons_self)
    have hsame : text = String.ofList kept ++ "/" ++ String.ofList rest := by
      rw [← String.toList_inj, htext, hc]
      simp
    have hrest : segments (String.ofList rest) = [] := segments_of_slashes fun d hd ↦
      of_decide_eq_true (hslashes d (List.mem_cons_of_mem c hd))
    rw [hsame, segments_slash, hrest, List.append_nil]

/-- So the path of a repository is what it is beneath the root as it is written. -/
theorem segments_repositoryPath (root repository : String) :
    segments (Resolver.repositoryPath (some root) repository) =
      segments (root ++ "/" ++ repository) := by
  have hpath : Resolver.repositoryPath (some root) repository =
      String.ofList (Text.dropTrailing (· = '/') root.toList) ++ "/" ++ repository := by
    rw [← String.toList_inj, Resolver.repositoryPath]
    simp
  rw [hpath, segments_slash, segments_slash, segments_dropTrailing]

/-! ### Images -/

/-- A repository is the identifier of an image when it is a directory that holds one of
manifests. -/
def IsImage (m : Memory) (repository : String) : Prop :=
  '/' ∉ repository.toList ∧ ∃ id table, m.child? repository "manifests" = some id ∧
    m.nodes.get? id = some (.directory table)

variable {m : Memory} {path : String}

/-- What a resolver sees of the entries of a directory, among them the manifests of an image. -/
theorem isImageListing_iff (hsound : m.Sound) {children : List (String × String)}
    (h : m.walk path = .ok (.directory children)) :
    Resolver.isImageListing (m.entries (.directory children)) = true ↔
      ∃ id table, children.lookup "manifests" = some id ∧
        m.nodes.get? id = some (.directory table) := by
  rw [Resolver.isImageListing, List.any_eq_true]
  constructor
  · rintro ⟨e, he, hmanifests⟩
    rw [Bool.and_eq_true, decide_eq_true_eq, decide_eq_true_eq] at hmanifests
    obtain ⟨hchild, child, hstored, hentry⟩ := mem_entries_iff.1 he
    rw [hmanifests.1] at hchild
    cases child with
    | file content =>
      rw [hentry] at hmanifests
      cases hmanifests.2
    | directory table =>
      exact ⟨e.id, table,
        (Ordered.lookup_eq_some_iff (hsound.ordered_of_walk h)).2 hchild, hstored⟩
  · rintro ⟨id, table, hlookup, hstored⟩
    refine ⟨Node.entry "manifests" id (.directory table), mem_entries_iff.2 ⟨?_, ?_⟩, rfl⟩
    · exact (Ordered.lookup_eq_some_iff (hsound.ordered_of_walk h)).1 hlookup
    · exact ⟨_, hstored, rfl⟩

/-- The entries of a reference are the child of that name. -/
theorem selected_entries (hsound : m.Sound) {children : List (String × String)}
    (h : m.walk path = .ok (.directory children)) {reference : String} (hne : reference ≠ "") :
    Resolver.selected reference (m.entries (.directory children)) =
      (children.lookup reference).toList := by
  have hnames := map_entries (hsound.holds_of_walk h)
  rw [← Ordered.filter_eq_lookup (hsound.ordered_of_walk h), Resolver.selected]
  generalize m.entries (.directory children) = entries at hnames
  rw [← hnames, List.filter_map, List.map_map]
  refine congrArg (List.map Entry.id) (List.filter_congr fun e _ ↦ ?_)
  simp [hne]

end Storage.Memory

/-! ### Asking -/

namespace World

theorem setStorage_storage (w : World) (storage : Nat) :
    w.setStorage storage (w.storage storage) = w := by
  have hstorages : w.storages.set storage (w.storage storage) = w.storages := by
    rw [World.storage, List.getD_eq_getElem?_getD]
    rcases Nat.lt_or_ge storage w.storages.length with hlt | hge
    · rw [List.getElem?_eq_getElem hlt, Option.getD_some, List.set_getElem_self]
    · exact List.set_eq_of_length_le hge
  rw [setStorage, hstorages]

/-- A tree in memory is listed at once, and nothing changes. -/
theorem run_list_of_memory {w : World} {storage : Nat} {m : Memory}
    (h : w.storage storage = .memory m) (path : String) :
    (onStorage storage (Storage.list path)).attempt.run w =
      ((.done (m.list path), w) : Outcome ResolveFailure _ × World) := by
  have hsame : w.setStorage storage (.memory m) = w := h ▸ w.setStorage_storage storage
  rw [run_attempt, onStorage, run_within, h]
  have hrun : (Storage.list path).run (.memory m) =
      (ofExcept id (m.list path)).run (.memory m) := rfl
  rw [hrun]
  cases m.list path with
  | error error =>
    rw [run_ofExcept_error, hsame]
    rfl
  | ok entries => rw [run_ofExcept_ok, hsame]

end World

namespace Resolver

variable {w : World} {storage : Nat} {m : Memory}

/-- The resolver sees whether a repository is the identifier of an image. -/
theorem run_isImage (h : w.storage storage = .memory m) (hsound : m.Sound) {repository : String}
    (himage : ¬ m.IsImage repository) : (isImage storage repository).run w = (.done false, w) := by
  rw [isImage]
  split
  · rfl
  · next hslash =>
    have hslash : '/' ∉ repository.toList := by simpa using hslash
    rw [run_bind, World.run_list_of_memory h]
    dsimp only
    rw [Memory.list_eq]
    cases hwalk : m.walk repository with
    | error error => rfl
    | ok node =>
      cases node with
      | file content => rfl
      | directory children =>
        have hnot : isImageListing (m.entries (.directory children)) = false := by
          rw [← Bool.not_eq_true, Memory.isImageListing_iff hsound hwalk]
          rintro ⟨id, table, hlookup, hstored⟩
          refine himage ⟨hslash, id, table, ?_, hstored⟩
          rw [Memory.child?, hwalk]
          exact hlookup
        show (Outcome.done (isImageListing (m.entries (.directory children))), w) = _
        rw [hnot]

/-- What a resolver with a root finds for a reference is the child of that name in the directory of
the repository, or nothing, and to look for it changes nothing. -/
theorem run_ask_ofStorage (h : w.storage storage = .memory m) (hsound : m.Sound)
    (root : String) {repository reference : String} (himage : ¬ m.IsImage repository)
    (hne : reference ≠ "") :
    ((ofStorage storage (some root)).ask repository reference).run w =
      (.done (m.child? (root ++ "/" ++ repository) reference).toList, w) := by
  have hwalk := Memory.walk_eq m (repositoryPath (some root) repository)
  have hwalk' := Memory.walk_eq m (root ++ "/" ++ repository)
  rw [Memory.segments_repositoryPath] at hwalk
  rw [ofStorage, run_bind, run_isImage h hsound himage]
  dsimp only
  rw [if_neg Bool.false_ne_true, run_bind, World.run_list_of_memory h, Memory.child?, hwalk',
    Memory.list_eq, hwalk]
  cases hreach : m.reach (Memory.segments (root ++ "/" ++ repository)) with
  | none => rfl
  | some node =>
    cases node with
    | file content => rfl
    | directory children =>
      rw [hreach] at hwalk'
      have hselected := Memory.selected_entries hsound hwalk' hne
      show (Outcome.done (selected reference (m.entries (.directory children))), w) = _
      rw [hselected]
      rfl

end Resolver

/-! ### The whole tree -/

namespace Storage.Memory

/-- Everything that is put into a tree is listed, is where its path says, and is resolved. -/
structure Published (m : Memory) : Prop where
  /-- The children of a stored directory are stored. -/
  closed : ∀ id children, m.nodes.get? id = some (.directory children) →
    ∀ c ∈ children, ∃ child, m.nodes.get? c.2 = some child
  /-- A directory is listed with one entry for each child, in the order of the names, which tells
  what is stored of the child: a file and its length, or a directory. -/
  listed : ∀ path children, m.walk path = .ok (.directory children) →
    ∃ entries, m.list path = .ok entries ∧ entries.map (fun e ↦ (e.name, e.id)) = children ∧
      Ordered.Increasing Entry.name entries ∧
      ∀ e ∈ entries,
        (∃ content, m.nodes.get? e.id = some (.file content) ∧
          e.kind = .file ∧ e.size = content.size) ∨
        ∃ table, m.nodes.get? e.id = some (.directory table) ∧ e.kind = .directory
  /-- The name of an entry behind its path is as good as the identifier of the entry. -/
  composed : ∀ path entries e, m.list path = .ok entries → e ∈ entries → e.name ≠ "" →
    '/' ∉ e.name.toList → m.Agrees (path ++ "/" ++ e.name) e.id
  /-- It does not matter how many slashes there are. -/
  slashes : ∀ path rest, m.Agrees (path ++ "//" ++ rest) (path ++ "/" ++ rest) ∧
    m.Agrees ("/" ++ path) path ∧ m.Agrees (path ++ "/") path
  /-- A path that begins with nothing that is stored is not found. -/
  unknown : ∀ path, (∀ id more, segments path = id :: more → m.nodes.get? id = none) →
    m.list path = .error (missing path .identifierNotFound) ∧
      m.read path = .error (missing path .identifierNotFound)
  /-- Nor is one that goes on through a file, or by a name that a directory does not have. -/
  missed : ∀ path rest node name more, m.walk path = .ok node → segments rest = name :: more →
    (∀ children, node = .directory children → children.lookup name = none) →
      m.list (path ++ "/" ++ rest) = .error (missing (path ++ "/" ++ rest) .pathNotFound) ∧
        m.read (path ++ "/" ++ rest) = .error (missing (path ++ "/" ++ rest) .pathNotFound)
  /-- A resolver with a root finds a reference as the child of that name in the directory of the
  repository beneath the root, or it finds nothing. -/
  resolved : ∀ (w : World) storage root repository reference, w.storage storage = .memory m →
    ¬ m.IsImage repository → reference ≠ "" →
      ((Resolver.ofStorage storage (some root)).ask repository reference).run w =
        (.done (m.child? (root ++ "/" ++ repository) reference).toList, w)

theorem Sound.published {m : Memory} (hsound : m.Sound) : m.Published where
  closed _ _ hget := hsound.closed hget
  listed _ _ hwalk := list_of_directory hsound hwalk
  composed _ _ _ hlist he hne hslash := agrees_of_mem_entries hsound hlist he hne hslash
  slashes path rest :=
    ⟨m.agrees_slash_slash path rest, m.agrees_slash_front path, m.agrees_slash_back path⟩
  unknown _ h := not_found_of_identifier h
  missed _ _ _ _ _ hwalk hrest hmissing := not_found_of_missing hwalk hrest hmissing
  resolved _ _ root _ _ hstorage himage hne :=
    Resolver.run_ask_ofStorage hstorage hsound root himage hne

/-- Whatever was inserted, and whatever was refused: a tree in memory can be listed completely, its
paths are put together from names, and a resolver finds what is published in it. -/
theorem published_of_run (insertions : List Insertion) : (run ∅ insertions).Published :=
  (sound_run insertions).published

/-- A name that is no identifier is not the identifier of an image. -/
theorem Sound.not_isImage {m : Memory} (hsound : m.Sound) {repository : String}
    (hname : segments repository = [repository]) (hlength : repository.toList.length ≠ 64) :
    ¬ m.IsImage repository := by
  have hnone : m.nodes.get? repository = none := by
    cases hget : m.nodes.get? repository with
    | none => rfl
    | some node =>
      rw [hsound.named hget] at hlength
      exact absurd (Digest.length_hashHex node.text) hlength
  rintro ⟨-, id, table, hchild, -⟩
  have hreach : m.reach (segments repository) = none := by rw [hname, reach, hnone]; rfl
  rw [child?, walk_eq, hreach] at hchild
  cases hchild

/-- A file that is published as a reference of a repository. -/
theorem published_of_run_reference :
    let file := "24e5fa83ea3d78ba97ff36665723f0df9e3d179e110965a34b679ad5ad27eaab"
    let app := "5dcde6a9fd89f515005ef9a8fc860bbfbb6541ae8fbd3275ca269053de524d50"
    let root := "a28c6974838e3869918d804407613967b459404a2e387c4e0e642e148f9ebc3d"
    let m := run ∅ [.file "x".toUTF8, .directory [("v1", file)], .directory [("app", app)]]
    let w : World := ⟨∅, ⟨fun _ ↦ .stalled, []⟩, [.memory m], 0, fun _ ↦ "fresh", 0⟩
    ((Resolver.ofStorage 0 (some root)).ask "app" "v1").run w = (.done [file], w) := by
  intro file app root m w
  have hfile : (Node.file "x".toUTF8).id = file := by decide +kernel +revert
  have happ : (Node.directory [("v1", file)]).id = app := by decide +kernel +revert
  have hroot : (Node.directory [("app", app)]).id = root := by decide +kernel +revert
  have hheld : (store ∅ (.file "x".toUTF8)).Holds (.directory [("v1", file)]) := fun c hc ↦ by
    rw [List.mem_singleton.1 hc, get?_store, if_pos hfile]
    exact ⟨_, rfl⟩
  have hheld' : ((store ∅ (.file "x".toUTF8)).store (.directory [("v1", file)])).Holds
      (.directory [("app", app)]) := fun c hc ↦ by
    rw [List.mem_singleton.1 hc, get?_store, if_pos happ]
    exact ⟨_, rfl⟩
  have hm : m = ((store ∅ (.file "x".toUTF8)).store (.directory [("v1", file)])).store
      (.directory [("app", app)]) := by
    show run ∅ _ = _
    rw [run_file, run_directory (List.pairwise_singleton _ _) hheld,
      run_directory (List.pairwise_singleton _ _) hheld', run_nil]
  have hsound : m.Sound := sound_run _
  have hwalk : m.walk (root ++ "/" ++ "app") = .ok (.directory [("v1", file)]) := by
    have hget : m.nodes.get? root = some (.directory [("app", app)]) := by
      rw [hm, get?_store, if_pos hroot]
    have happ : m.nodes.get? app = some (.directory [("v1", file)]) := by
      rw [hm, get?_store, hroot, if_neg (by decide), get?_store, if_pos happ]
    rw [walk_eq_ok_iff, reach_slash (walk_eq_ok_iff.1 (walk_of_get? hsound hget)),
      segments_of_name (by decide) (by decide), descend_of_lookup rfl, happ]
  have himage : ¬ m.IsImage "app" := hsound.not_isImage (by decide) (by decide)
  have hask := (published_of_run _).resolved w 0 root "app" "v1" rfl himage (by decide)
  rw [hask, child?, hwalk]
  rfl

end Storage.Memory

end ImageRegistry
