import ImageRegistry.Proofs.Storage.Path

/-!
# Listings

A listing passes over children that are not stored. In a sound tree there are none, so a directory
has one entry for each child (`map_entries`), in the order of their names, and what it tells of a
child is what is stored. An entry can be followed: its name behind a path leads where its identifier
leads (`agrees_of_mem_entries`).

A name is looked up among children that are in order, each name once, so the entries of one name are
the one child that a look-up finds, or none (`Ordered.filter_eq_lookup`).
-/

namespace ImageRegistry

namespace Ordered

variable {ν : Type} {l : List (String × ν)}

/-- In a list in order the elements of a key are the one that a look-up finds. -/
theorem filter_eq_lookup (h : Increasing Prod.fst l) (key : String) :
    (l.filter fun e ↦ e.1 = key).map Prod.snd = (l.lookup key).toList := by
  induction l with
  | nil => rfl
  | cons e rest ih =>
    obtain ⟨k, value⟩ := e
    obtain ⟨hlt, hrest⟩ := List.pairwise_cons.1 h
    by_cases hkey : k = key
    · subst hkey
      have hnone : rest.filter (fun e ↦ e.1 = k) = [] := by
        refine List.filter_eq_nil_iff.2 fun e he hsame ↦ ?_
        have hbehind := hlt e he
        rw [of_decide_eq_true hsame] at hbehind
        exact String.lt_irrefl k hbehind
      simp [hnone]
    · have hskip : (key == k) = false := beq_false_of_ne (Ne.symm hkey)
      rw [List.filter_cons_of_neg (by simpa using hkey), List.lookup_cons, hskip]
      exact ih hrest

theorem lookup_eq_some_iff (h : Increasing Prod.fst l) {key : String} {value : ν} :
    l.lookup key = some value ↔ (key, value) ∈ l := by
  rw [← Option.mem_toList, ← filter_eq_lookup h, List.mem_map]
  constructor
  · rintro ⟨⟨k, v⟩, he, rfl⟩
    obtain ⟨he, hkey⟩ := List.mem_filter.1 he
    rwa [← of_decide_eq_true hkey]
  · exact fun he ↦ ⟨(key, value), List.mem_filter.2 ⟨he, decide_eq_true rfl⟩, rfl⟩

end Ordered

namespace Storage.Memory

variable {m : Memory} {node : Node} {path name : String} {children : List (String × String)}
  {e : Entry}

/-! ### Entries -/

@[simp] theorem Node.name_entry (name id : String) (node : Node) :
    (Node.entry name id node).name = name := by cases node <;> rfl

@[simp] theorem Node.id_entry (name id : String) (node : Node) :
    (Node.entry name id node).id = id := by cases node <;> rfl

/-- When all children are stored, each of them has its entry. -/
theorem map_entries (h : m.Holds (.directory children)) :
    (m.entries (.directory children)).map (fun e ↦ (e.name, e.id)) = children := by
  rw [entries]
  induction children with
  | nil => rfl
  | cons c rest ih =>
    obtain ⟨child, hchild⟩ := h c List.mem_cons_self
    rw [List.filterMap_cons, hchild]
    dsimp only [Option.map_some]
    rw [List.map_cons, Node.name_entry, Node.id_entry,
      ih fun d hd ↦ h d (List.mem_cons_of_mem c hd)]

/-- An entry tells of a child what is stored under its identifier. -/
theorem mem_entries_iff : e ∈ m.entries (.directory children) ↔
    (e.name, e.id) ∈ children ∧ ∃ child, m.nodes.get? e.id = some child ∧
      e = child.entry e.name e.id := by
  rw [entries, List.mem_filterMap]
  constructor
  · rintro ⟨c, hc, he⟩
    obtain ⟨child, hchild, rfl⟩ := Option.map_eq_some_iff.1 he
    rw [Node.name_entry, Node.id_entry]
    exact ⟨hc, child, hchild, rfl⟩
  · rintro ⟨hc, child, hchild, he⟩
    exact ⟨(e.name, e.id), hc, Option.map_eq_some_iff.2 ⟨child, hchild, he.symm⟩⟩

theorem Sound.ordered_of_walk (hsound : m.Sound) (h : m.walk path = .ok (.directory children)) :
    Ordered.Increasing Prod.fst children := by
  obtain ⟨id, hid⟩ := exists_get?_of_walk h
  exact hsound.ordered hid

/-- The entries of a directory are in order, each name once. -/
theorem increasing_entries (hsound : m.Sound) (h : m.walk path = .ok (.directory children)) :
    Ordered.Increasing Entry.name (m.entries (.directory children)) := by
  have hordered := hsound.ordered_of_walk h
  rw [← map_entries (hsound.holds_of_walk h), Ordered.Increasing, List.pairwise_map] at hordered
  exact hordered

/-- A listing of a directory is complete, in order and true. -/
theorem list_of_directory (hsound : m.Sound) (h : m.walk path = .ok (.directory children)) :
    ∃ entries, m.list path = .ok entries ∧ entries.map (fun e ↦ (e.name, e.id)) = children ∧
      Ordered.Increasing Entry.name entries ∧
      ∀ e ∈ entries,
        (∃ content, m.nodes.get? e.id = some (.file content) ∧
          e.kind = .file ∧ e.size = content.size) ∨
        ∃ table, m.nodes.get? e.id = some (.directory table) ∧ e.kind = .directory := by
  refine ⟨_, list_eq_ok_iff.2 ⟨_, h, rfl⟩, map_entries (hsound.holds_of_walk h),
    increasing_entries hsound h, fun e he ↦ ?_⟩
  obtain ⟨-, child, hchild, hentry⟩ := mem_entries_iff.1 he
  cases child with
  | file content =>
    refine Or.inl ⟨content, hchild, ?_⟩
    rw [hentry]
    exact ⟨rfl, rfl⟩
  | directory table =>
    refine Or.inr ⟨table, hchild, ?_⟩
    rw [hentry]
    rfl

/-- The name of an entry behind the path of its directory is a path to what the entry names. -/
theorem agrees_of_mem_entries (hsound : m.Sound) {entries : List Entry}
    (hlist : m.list path = .ok entries) (he : e ∈ entries) (hne : e.name ≠ "")
    (hslash : '/' ∉ e.name.toList) : m.Agrees (path ++ "/" ++ e.name) e.id := by
  obtain ⟨node, hwalk, rfl⟩ := list_eq_ok_iff.1 hlist
  cases node with
  | file content => cases he
  | directory children =>
    obtain ⟨hchild, child, hstored, -⟩ := mem_entries_iff.1 he
    have hlookup : children.lookup e.name = some e.id :=
      (Ordered.lookup_eq_some_iff (hsound.ordered_of_walk hwalk)).2 hchild
    have hname : m.reach (segments (path ++ "/" ++ e.name)) = some child := by
      rw [reach_slash (walk_eq_ok_iff.1 hwalk), segments_of_name hne hslash,
        descend_of_lookup hlookup, hstored]
    exact agrees_of_reach hname (walk_eq_ok_iff.1 (walk_of_get? hsound hstored))

/-! ### Slashes -/

theorem agrees_slash_slash (m : Memory) (path rest : String) :
    m.Agrees (path ++ "//" ++ rest) (path ++ "/" ++ rest) := by
  have htwo : path ++ "//" ++ rest = path ++ "/" ++ ("" ++ "/" ++ rest) := by
    rw [← String.toList_inj]
    simp
  refine agrees_of_segments ?_
  rw [htwo, segments_slash, segments_slash, segments_slash, segments_empty, List.nil_append]

theorem agrees_slash_front (m : Memory) (path : String) : m.Agrees ("/" ++ path) path := by
  have hfront : "/" ++ path = "" ++ "/" ++ path := by rw [String.empty_append]
  refine agrees_of_segments ?_
  rw [hfront, segments_slash, segments_empty, List.nil_append]

theorem agrees_slash_back (m : Memory) (path : String) : m.Agrees (path ++ "/") path := by
  have hback : path ++ "/" = path ++ "/" ++ "" := by rw [String.append_empty]
  refine agrees_of_segments ?_
  rw [hback, segments_slash, segments_empty, List.append_nil]

/-! ### Paths that lead nowhere -/

/-- A path that goes on through a file, or by a name that a directory does not have, is not
found. -/
theorem not_found_of_missing {rest : String} {more : List String} (h : m.walk path = .ok node)
    (hrest : segments rest = name :: more)
    (hmissing : ∀ children, node = .directory children → children.lookup name = none) :
    let error := missing (path ++ "/" ++ rest) .pathNotFound
    m.list (path ++ "/" ++ rest) = .error error ∧ m.read (path ++ "/" ++ rest) = .error error := by
  have hreach := walk_eq_ok_iff.1 h
  have hnone : m.reach (segments (path ++ "/" ++ rest)) = none := by
    rw [reach_slash hreach, hrest, descend_of_missing hmissing]
  have hfailure : m.failure (segments (path ++ "/" ++ rest)) = .pathNotFound := by
    obtain ⟨id, front, top, hnames, htop, -⟩ := reach_eq_some_iff.1 hreach
    rw [segments_slash, hnames]
    exact if_pos (Table.contains_eq_true_iff.2 ⟨top, htop⟩)
  have hfound := not_found_of_reach hnone
  rwa [hfailure] at hfound

/-- A path that begins with no identifier of the tree is not found. -/
theorem not_found_of_identifier
    (h : ∀ id more, segments path = id :: more → m.nodes.get? id = none) :
    let error := missing path .identifierNotFound
    m.list path = .error error ∧ m.read path = .error error := by
  have hnone : m.reach (segments path) = none := by
    cases hnames : segments path with
    | nil => rfl
    | cons id more => rw [reach, h id more hnames]; rfl
  have hfailure : m.failure (segments path) = .identifierNotFound := by
    cases hnames : segments path with
    | nil => rfl
    | cons id more => exact if_neg (by simp [Table.contains, h id more hnames])
  have hfound := not_found_of_reach hnone
  rwa [hfailure] at hfound

end Storage.Memory

end ImageRegistry
