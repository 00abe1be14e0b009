import ImageRegistry.Proofs.Files.Growth
import ImageRegistry.Proofs.Link.Keys

/-!
# A tree of link files

`Filed root links t` says that of all that stands beneath the root in `t`, the link files of `links`
are the only files. Where the root leads is a matter of the whole tree, and while directories are
missing on the way to it, it leads nowhere; so the invariant speaks of wherever the root would lead
if directories were made (`beneath`). A link that is written keeps it (`Filed.persist`): the file
comes to its own spot beneath the root, because no symbolic link is in the way, and no other tag has
the same spot.

Both readers of link files find what is filed (`Filed.stored?_of_get?`, `Filed.readIdentifiers`),
and the cache finds nothing else (`Filed.stored?_eq_none`).
-/

namespace ImageRegistry

open Files (Node Place Tree)
open Files.Tree (Furnishes Grows Leads maxLinks)

namespace Files.Tree

variable {t u : Tree} {path content : ByteArray} {place : Place}

theorem locate_of_grows (h : Grows t u) (hlocate : t.locate true path = .ok place) :
    u.locate true path = .ok place := by
  obtain ⟨hasked, hwalk⟩ := locate_eq_ok_iff.1 hlocate
  exact locate_eq_ok_iff.2 ⟨hasked, walk_of_leads ((leads_of_walk hwalk).grows h)⟩

theorem write_eq_ok (h : t.write path content = .ok u) :
    ∃ place, t.locate true path = .ok place ∧ t.node? place ≠ some .directory ∧
      u = t.put place (.file content) := by
  obtain ⟨place, hlocate, hput⟩ := bind_eq_ok_iff.1 h
  split at hput
  · cases hput
  · next hdirectory => exact ⟨place, hlocate, hdirectory, (Except.ok.inj hput).symm⟩

end Files.Tree

namespace Link

variable {root repository reference identifier : String} {t u made : Tree} {top q : Place}
  {links : Table (String × String) String}

/-! ### Where link files are -/

/-- The root leads to a place. -/
def Rooted (root : String) (t : Tree) (top : Place) : Prop :=
  Leads t maxLinks [] (Files.parts root.toUTF8) top

/-- The root leads to where paths go on behind it. -/
theorem rooted_of_goesOn {more : Nat} (h : ∀ tail : List ByteArray,
    t.walk true maxLinks [] ((trunk root.toList).map encoded ++ tail) =
      t.walk true more top tail) : Rooted root t top := by
  refine Files.Tree.leads_of_walk ?_
  rw [← encoded_toList, parts_encoded]
  rcases segments_eq_trunk root.toList with hroot | ⟨hroot, -⟩
  · have htrunk := h []
    rw [List.append_nil, Tree.walk_nil] at htrunk
    rw [hroot, htrunk]
  · -- An empty part at the end stays where the front leads.
    rw [hroot, List.map_append, h, List.map_singleton, Files.Tree.walk_stays rfl, Tree.walk_nil]

/-- A path that goes on behind the root goes on from where the root leads. -/
theorem rooted_of_leads {names : List ByteArray} (hne : names ≠ [])
    (h : Leads t maxLinks [] ((trunk root.toList).map encoded ++ names) q) :
    ∃ more top, Rooted root t top ∧ ∀ tail : List ByteArray,
      t.walk true maxLinks [] ((trunk root.toList).map encoded ++ tail) =
        t.walk true more top tail := by
  obtain ⟨more, top, -, hfront⟩ := h.append hne
  exact ⟨more, top, rooted_of_goesOn hfront, hfront⟩

/-- A file is written after directories were made. -/
theorem persist_eq_ok {file : String} (h : Cache.persist t file identifier = (.ok (), u)) :
    ∃ made, Furnishes t made ∧
      made.write file.toUTF8 (identifier ++ "\n").toUTF8 = .ok u := by
  have hmade := Files.Tree.furnishes_ensureParent t file.toUTF8
  rw [Cache.persist] at h
  split at h
  · cases h
  · next made hparent =>
    rw [hparent] at hmade
    refine ⟨made, hmade, ?_⟩
    split at h
    · next written hwritten =>
      obtain ⟨-, rfl⟩ := Prod.mk.inj h
      exact hwritten
    · cases h

/-- The node of a link file. -/
def line (identifier : String) : Node := .file (identifier ++ "\n").toUTF8

/-- The links are filed beneath the root, and nothing else is but directories. -/
structure Filed (root : String) (links : Table (String × String) String) (t : Tree) : Prop where
  tags : ∀ {repository reference identifier},
    links.get? (repository, reference) = some identifier →
      IsRepository repository ∧ IsTag reference ∧ IsIdentifier identifier
  beneath : ∀ {made top}, Furnishes t made → Rooted root made top →
    ∀ {below node}, below ≠ [] → t.node? (top ++ below) = some node →
      node = .directory ∨ ∃ repository reference identifier,
        links.get? (repository, reference) = some identifier ∧
          below = spot repository reference ∧ node = line identifier
  there : ∀ {repository reference identifier},
    links.get? (repository, reference) = some identifier → ∃ top, Rooted root t top ∧
      t.locate true (path root repository reference).toUTF8 =
        .ok (top ++ spot repository reference) ∧
      t.node? (top ++ spot repository reference) = some (line identifier)

namespace Filed

/-- Directories may come in. -/
theorem furnished (h : Filed root links t) (htu : Furnishes t u) : Filed root links u where
  tags := h.tags
  beneath hmade hroot below node hbelow hnode := by
    rcases htu.made hnode with ht | hdirectory
    · exact h.beneath (htu.trans hmade) hroot hbelow ht
    · exact Or.inl hdirectory
  there hlink := by
    obtain ⟨top, hroot, hlocate, hnode⟩ := h.there hlink
    exact ⟨top, hroot.grows htu.grows, Files.Tree.locate_of_grows htu.grows hlocate,
      htu.kept hnode⟩

theorem of_beneath (h : Filed root links t) (hroot : Rooted root t top) {below : Place}
    {node : Node} (hbelow : below ≠ []) (hnode : t.node? (top ++ below) = some node) :
    node = .directory ∨ ∃ repository reference identifier,
      links.get? (repository, reference) = some identifier ∧
        below = spot repository reference ∧ node = line identifier :=
  h.beneath (.refl t) hroot hbelow hnode

/-- No symbolic link stands beneath the root. -/
theorem unlinked (h : Filed root links t) (hroot : Rooted root t top) (below : Place)
    (target : ByteArray) (hbelow : below ≠ []) : t.node? (top ++ below) ≠ some (.link target) := by
  intro hlink
  rcases h.of_beneath hroot hbelow hlink with hdirectory | ⟨_, _, _, -, -, hfile⟩
  · cases hdirectory
  · cases hfile

/-- Names behind the root lead to the place that they name, through directories. -/
theorem of_leads (h : Filed root links t) {names : List ByteArray}
    (hne : names ≠ []) (hnames : ∀ name ∈ names, Files.IsName name)
    (hleads : Leads t maxLinks [] ((trunk root.toList).map encoded ++ names) q) :
    ∃ top, Rooted root t top ∧ q = top ++ names ∧
      ∀ above last, names = above ++ [last] → above ≠ [] →
        t.node? (top ++ above) = some .directory := by
  obtain ⟨more, top, hroot, hback⟩ := rooted_of_leads hne hleads
  have hnamesLead := Files.Tree.leads_of_walk
    ((hback names).symm.trans (Files.Tree.walk_of_leads hleads))
  exact ⟨top, hroot, hnamesLead.of_names hnames (h.unlinked hroot)⟩

/-- The path of a link file leads to its spot beneath the root, which is in a directory. -/
theorem of_locate_path (h : Filed root links t)
    (hlocate : t.locate true (path root repository reference).toUTF8 = .ok q) :
    ∃ top, Rooted root t top ∧ q = top ++ spot repository reference ∧
      (parts repository ≠ [] →
        t.node? (top ++ (parts repository).map encoded) = some .directory) := by
  have hleads := Files.Tree.leads_of_walk (Files.Tree.locate_eq_ok_iff.1 hlocate).2
  rw [parts_path, List.map_append, List.append_assoc, ← spot_eq] at hleads
  obtain ⟨top, hroot, hq, habove⟩ :=
    h.of_leads (spot_ne_nil _ _) (fun _ ↦ isName_of_mem_spot) hleads
  exact ⟨top, hroot, hq, fun hne ↦
    habove _ _ (spot_eq repository reference) fun hnil ↦ hne (List.map_eq_nil_iff.1 hnil)⟩

/-! ### Writing a link -/

/-- A link whose file is put where its path leads is filed, in the place of the one that the tag
had. -/
theorem put (h : Filed root links t) (hrepository : IsRepository repository)
    (hreference : IsTag reference) (hidentifier : IsIdentifier identifier)
    (hlocate : t.locate true (path root repository reference).toUTF8 = .ok q)
    (hdirectory : t.node? q ≠ some .directory) :
    Filed root (links.insert (repository, reference) identifier) (t.put q (line identifier)) := by
  obtain ⟨top, hroot, rfl, -⟩ := h.of_locate_path hlocate
  have hspot : top ++ spot repository reference ≠ [] :=
    List.append_ne_nil_of_right_ne_nil _ (spot_ne_nil _ _)
  have hgrows : Grows t (t.put (top ++ spot repository reference) (line identifier)) :=
    Files.Tree.grows_put hdirectory fun target ↦ h.unlinked hroot _ target (spot_ne_nil _ _)
  constructor
  · intro s g i hi
    rw [Table.get?_insert] at hi
    split at hi
    · next hsame =>
      obtain ⟨rfl, rfl⟩ := Prod.mk.inj hsame
      rw [← Option.some.inj hi]
      exact ⟨hrepository, hreference, hidentifier⟩
    · exact h.tags hi
  · intro made top' hmade hroot' below node hbelow hnode
    -- The root leads to where it led before the file was written.
    obtain rfl : top = top' := ((hroot.grows hgrows).grows hmade.grows).unique hroot'
    rw [Files.Tree.node?_put hspot] at hnode
    split at hnode
    · next hsame =>
      obtain rfl := List.append_cancel_left hsame
      exact Or.inr ⟨repository, reference, identifier, Table.get?_insert_self _ _ _, rfl,
        (Option.some.inj hnode).symm⟩
    · next hne =>
      rcases h.of_beneath hroot hbelow hnode with hdirectory | ⟨s, g, i, hi, rfl, hline⟩
      · exact Or.inl hdirectory
      · refine Or.inr ⟨s, g, i, ?_, rfl, hline⟩
        rw [Table.get?_insert_of_ne _ _ fun hsame ↦ hne ?_, hi]
        obtain ⟨rfl, rfl⟩ := Prod.mk.inj hsame
        rfl
  · intro s g i hi
    rw [Table.get?_insert] at hi
    split at hi
    · next hsame =>
      obtain ⟨rfl, rfl⟩ := Prod.mk.inj hsame
      refine ⟨top, hroot.grows hgrows, Files.Tree.locate_of_grows hgrows hlocate, ?_⟩
      rw [Files.Tree.node?_put hspot, if_pos rfl, Option.some.inj hi]
    · next hne =>
      obtain ⟨top', hroot', hlocate', hnode⟩ := h.there hi
      obtain rfl : top = top' := hroot.unique hroot'
      refine ⟨top, hroot.grows hgrows, Files.Tree.locate_of_grows hgrows hlocate', ?_⟩
      rw [Files.Tree.node?_put hspot, if_neg fun hsame ↦ hne ?_, hnode]
      -- Only the same tag has the same spot.
      obtain ⟨hs, hg, -⟩ := h.tags hi
      exact Prod.ext_iff.2
        (spot_inj hrepository hs hreference hg (List.append_cancel_left hsame))

/-- A link that is written is filed. -/
theorem persist (h : Filed root links t) (hrepository : IsRepository repository)
    (hreference : IsTag reference) (hidentifier : IsIdentifier identifier)
    (hok : Cache.persist t (path root repository reference) identifier = (.ok (), u)) :
    Filed root (links.insert (repository, reference) identifier) u := by
  obtain ⟨made, hmade, hwrite⟩ := persist_eq_ok hok
  obtain ⟨place, hlocate, hdirectory, rfl⟩ := Files.Tree.write_eq_ok hwrite
  exact (h.furnished hmade).put hrepository hreference hidentifier hlocate hdirectory

/-! ### Reading links -/

theorem readText (h : Filed root links t)
    (hlink : links.get? (repository, reference) = some identifier) :
    t.readText (path root repository reference) = .ok (identifier ++ "\n") := by
  obtain ⟨top, -, hlocate, hnode⟩ := h.there hlink
  have hread := Files.Tree.read_eq_ok_iff.2 ⟨_, hlocate, hnode⟩
  have htext : Text.utf8? (identifier ++ "\n").toUTF8 = some (identifier ++ "\n") :=
    Text.utf8?_eq_some_iff.2 rfl
  rw [Tree.readText, hread]
  simp only [bind, Except.bind, htext]

/-- What can be read at the path of a link is the file of a tag that has the same spot. -/
theorem of_readText (h : Filed root links t) {text : String}
    (hread : t.readText (path root repository reference) = .ok text) :
    ∃ s g i, links.get? (s, g) = some i ∧ spot repository reference = spot s g := by
  obtain ⟨content, hcontent, -⟩ := bind_eq_ok_iff.1 hread
  obtain ⟨place, hlocate, hfile⟩ := Files.Tree.read_eq_ok_iff.1 hcontent
  obtain ⟨top, hroot, rfl, -⟩ := h.of_locate_path hlocate
  rcases h.of_beneath hroot (spot_ne_nil _ _) hfile with hdirectory | ⟨s, g, i, hi, hspot, -⟩
  · cases hdirectory
  · exact ⟨s, g, i, hi, hspot⟩

/-- The cache finds a link in its file. -/
theorem stored?_of_get? (h : Filed root links t)
    (hlink : links.get? (repository, reference) = some identifier) :
    (Cache.empty (some root)).stored? t repository reference = some identifier := by
  obtain ⟨-, -, hidentifier⟩ := h.tags hlink
  have hread := h.readText hlink
  simp only [Cache.stored?, Cache.empty, Option.bind_eq_bind, Option.bind_some, hread]
  exact firstIdentifier_line hidentifier

/-- Where no tag has the same spot, the cache finds nothing. -/
theorem stored?_eq_none (h : Filed root links t)
    (hspot : ∀ s g i, links.get? (s, g) = some i → spot repository reference ≠ spot s g) :
    (Cache.empty (some root)).stored? t repository reference = none := by
  simp only [Cache.stored?, Cache.empty, Option.bind_eq_bind, Option.bind_some]
  split
  · next text hread =>
    obtain ⟨s, g, i, hi, hsame⟩ := h.of_readText hread
    exact absurd hsame (hspot s g i hi)
  · rfl

/-- A resolver finds a link in its file. -/
theorem readIdentifiers (h : Filed root links t)
    (hlink : links.get? (repository, reference) = some identifier) :
    Resolver.readIdentifiers t (path root repository reference) = .ok [identifier] := by
  obtain ⟨-, -, hidentifier⟩ := h.tags hlink
  rw [Resolver.readIdentifiers, h.readText hlink]
  exact congrArg Except.ok (listed_line hidentifier)

end Filed

end Link

end ImageRegistry
