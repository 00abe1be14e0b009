import ImageRegistry.Proofs.Files.Children
import ImageRegistry.Proofs.Link.Filed

/-!
# Listing the tags of a repository

The directory of a repository holds the link files of its tags. Directories of nested repositories
stand beside them, and in these the link files of other tags, but what is listed is what stands one
name further, and only files count (`Filed.linkFiles_perm`). So a resolver that can list a
repository finds the identifier of each of its tags once, and no other one
(`Filed.readDirectory_of_children`). It can list every repository that has a tag
(`Filed.lookUp_listing`), and finds nothing of one that has none (`Filed.lookUp_of_asked`).
-/

namespace ImageRegistry

open Files (Node Place Tree)
open Files.Tree (Unlistable maxLinks)

namespace Files

/-- The beginning of a path that can be asked for can be asked for, unless it is empty. -/
theorem askedParts_of_prefix {path front : ByteArray} {asked : List ByteArray}
    (hfront : Text.byteList front <+: Text.byteList path) (hne : front.isEmpty = false)
    (h : askedParts path = .ok asked) : askedParts front = .ok (parts front) := by
  have hlength (bytes : ByteArray) : (Text.byteList bytes).length = bytes.size :=
    Array.length_toList
  have hsize : front.size ≤ path.size := by
    rw [← hlength, ← hlength]
    exact hfront.length_le
  rw [askedParts] at h
  split at h
  · cases h
  · next hnul =>
    split at h
    · cases h
    · split at h
      · cases h
      · next hbound =>
        have hnul' : ¬ (Text.byteList front).contains 0 = true := fun hmem ↦
          hnul (List.contains_iff_mem.2 (hfront.subset (List.contains_iff_mem.1 hmem)))
        rw [askedParts, if_neg hnul', if_neg (by rw [hne]; decide), if_neg (by omega)]

end Files

namespace Link

variable {root repository reference identifier : String} {t : Tree} {top q : Place}
  {links : Table (String × String) String}

/-- Nothing is in the way of listing a directory: it can be listed, or it is not there. -/
def Listable (t : Tree) (path : String) : Prop :=
  ∀ failure, t.children path.toUTF8 = .error failure → failure = .notFound

theorem prefix_byteList_encoded {text other : List Char} (h : text <+: other) :
    Text.byteList (encoded text) <+: Text.byteList (encoded other) := by
  obtain ⟨rest, rfl⟩ := h
  rw [encoded, encoded, Text.byteList_toUTF8, Text.byteList_toUTF8, List.flatMap_append]
  exact List.prefix_append _ _

theorem prefix_push (path part : List Char) : path <+: push path part := by
  rw [push]
  split <;> exact List.prefix_append _ _

theorem prefix_byteList_directory (root repository reference : String) :
    Text.byteList (directory root repository).toUTF8 <+:
      Text.byteList (path root repository reference).toUTF8 := by
  rw [← encoded_toList, path, ← encoded]
  exact prefix_byteList_encoded (prefix_push _ _)

theorem prefix_byteList_root (root repository : String) :
    Text.byteList root.toUTF8 <+: Text.byteList (directory root repository).toUTF8 := by
  rw [← encoded_toList, directory, ← encoded]
  refine prefix_byteList_encoded ?_
  generalize root.toList = path
  induction parts repository generalizing path with
  | nil => exact List.prefix_refl path
  | cons first rest ih => exact (prefix_push path first).trans (ih _)

/-- The parts of the directory of a repository are those of the path of a link file, without the
name of the file. -/
theorem parts_directory_of_path (root repository : String) :
    Files.parts (directory root repository).toUTF8 =
        (trunk root.toList ++ parts repository).map encoded ∨
      Files.parts (directory root repository).toUTF8 =
        (trunk root.toList ++ parts repository).map encoded ++ [ByteArray.empty] := by
  rw [← encoded_toList, parts_encoded, ← trunk_directory]
  rcases segments_eq_trunk (directory root repository).toList with h | ⟨h, -⟩
  · exact Or.inl (congrArg _ h)
  · rw [h, List.map_append]
    exact Or.inr rfl

/-- Where the path of a link file leads somewhere, the directory of the repository does so too,
unless it has no path, and from there it is one name to the file. -/
theorem locate_directory (hne : directory root repository ≠ "")
    (hlocate : t.locate true (path root repository reference).toUTF8 = .ok q) :
    ∃ more place, t.locate true (directory root repository).toUTF8 = .ok place ∧
      Tree.Standing t place ∧ t.walk true more place [nameOf reference] = .ok q := by
  obtain ⟨hasked, hwalk⟩ := Files.Tree.locate_eq_ok_iff.1 hlocate
  have hempty : (directory root repository).toUTF8.isEmpty = false := by
    refine Bool.eq_false_iff.2 fun hempty ↦ hne ?_
    rw [← String.toList_inj, ← encoded_inj, encoded_toList, Files.isEmpty_eq_true_iff.1 hempty]
    rfl
  rw [parts_path] at hwalk
  obtain ⟨more, place, hstands, hfront⟩ :=
    (Files.Tree.leads_of_walk hwalk).append (List.cons_ne_nil _ _)
  rw [hfront] at hwalk
  refine ⟨more, place, Files.Tree.locate_eq_ok_iff.2 ⟨?_, ?_⟩, hstands, hwalk⟩
  · have hprefix := prefix_byteList_directory root repository reference
    exact Files.askedParts_of_prefix hprefix hempty hasked
  · rcases parts_directory_of_path root repository with hparts | hparts
    · rw [hparts, ← List.append_nil (List.map _ _), hfront, Tree.walk_nil]
    · -- An empty part at the end stays where the front leads.
      rw [hparts, hfront, Files.Tree.walk_stays rfl, Tree.walk_nil]

namespace Filed

/-- The links of a repository. -/
def linksOf (links : Table (String × String) String) (repository : String) :
    List ((String × String) × String) :=
  links.entries.filter (·.1.1 = repository)

theorem mem_linksOf_iff {e : (String × String) × String} : e ∈ linksOf links repository ↔
    e.1.1 = repository ∧ links.get? (repository, e.1.2) = some e.2 := by
  obtain ⟨⟨r, f⟩, i⟩ := e
  rw [linksOf, List.mem_filter, links.get?_eq_some_iff, decide_eq_true_iff, and_comm]
  constructor
  · rintro ⟨rfl, he⟩
    exact ⟨rfl, he⟩
  · rintro ⟨rfl, he⟩
    exact ⟨rfl, he⟩

theorem parts_ne_nil (h : IsRepository repository) : parts repository ≠ [] := by
  rw [parts_of_isRepository h]
  exact Text.segments_ne_nil '/' _

/-- The directory of a repository leads to the parts of the repository beneath the root. -/
theorem of_locate_directory (h : Filed root links t) (hrepository : IsRepository repository)
    (hlocate : t.locate true (directory root repository).toUTF8 = .ok q) :
    ∃ top, Rooted root t top ∧ q = top ++ (parts repository).map encoded := by
  have hleads := Files.Tree.leads_of_walk (Files.Tree.locate_eq_ok_iff.1 hlocate).2
  have hne : (parts repository).map encoded ≠ [] := fun hnil ↦
    parts_ne_nil hrepository (List.map_eq_nil_iff.1 hnil)
  rw [parts_directory root (parts_ne_nil hrepository), List.map_append] at hleads
  have hnames : ∀ name ∈ (parts repository).map encoded, Files.IsName name := fun name hname ↦ by
    obtain ⟨part, hpart, rfl⟩ := List.mem_map.1 hname
    exact isName_of_mem_parts hpart
  obtain ⟨top, hroot, hq, -⟩ := h.of_leads hne hnames hleads
  exact ⟨top, hroot, hq⟩

/-- A file is a link file of the directory of a repository if it is that of one of its tags. -/
theorem mem_linkFiles_iff (h : Filed root links t) (hrepository : IsRepository repository)
    (hroot : Rooted root t top) {children : List (ByteArray × Node)}
    (hchildren : ∀ name node, (name, node) ∈ children ↔
      t.node? (top ++ (parts repository).map encoded ++ [name]) = some node) (file : String) :
    file ∈ children.filterMap (Resolver.linkFile? (directory root repository)) ↔
      ∃ f i, links.get? (repository, f) = some i ∧ path root repository f = file := by
  have hspot (f : String) : top ++ (parts repository).map encoded ++ [nameOf f] =
      top ++ spot repository f := by
    rw [spot_eq, List.append_assoc]
  rw [List.mem_filterMap]
  constructor
  · rintro ⟨⟨name, node⟩, hchild, hfile⟩
    obtain ⟨content, text, rfl, rfl, -, rfl⟩ := linkFile?_eq_some_iff.1 hfile
    have hnode := (hchildren _ _).1 hchild
    rw [List.append_assoc] at hnode
    rcases h.of_beneath hroot (by simp) hnode with hdirectory | ⟨s, f, i, hi, hbelow, -⟩
    · cases hdirectory
    · obtain ⟨hs, -, -⟩ := h.tags hi
      rw [spot, ← encoded_toList, ← List.map_singleton, ← List.map_append,
        List.map_inj_right fun _ _ ↦ encoded_inj.1] at hbelow
      obtain ⟨hparts, hname⟩ := List.append_inj' hbelow rfl
      obtain rfl := parts_inj hrepository hs hparts
      refine ⟨f, i, hi, ?_⟩
      rw [path, (List.cons.inj hname).1]
  · rintro ⟨f, i, hi, rfl⟩
    obtain ⟨top', hroot', -, hnode⟩ := h.there hi
    obtain rfl : top = top' := hroot.unique hroot'
    rw [← hspot] at hnode
    refine ⟨_, (hchildren _ _).2 hnode, linkFile?_eq_some_iff.2 ⟨_, String.ofList (fileName f), rfl,
      rfl, ?_, ?_⟩⟩
    · rw [byteList_nameOf]
      rfl
    · rw [String.toList_ofList]
      rfl

/-- No two links of a repository have the same file. -/
theorem nodup_files (h : Filed root links t) (repository : String) :
    ((linksOf links repository).map fun e ↦ path root repository e.1.2).Nodup := by
  refine List.Nodup.map_on (fun e he e' he' hsame ↦ ?_) (links.nodup.of_map.filter _)
  obtain ⟨hrepository, hlink⟩ := mem_linksOf_iff.1 he
  obtain ⟨hrepository', hlink'⟩ := mem_linksOf_iff.1 he'
  have hname : nameOf e.1.2 = nameOf e'.1.2 := by
    have hlast := getLast?_parts_path root repository e.1.2
    rw [hsame, getLast?_parts_path] at hlast
    exact (Option.some.inj hlast).symm
  have htag : e.1.2 = e'.1.2 :=
    escaped_inj (h.tags hlink).2.1 (h.tags hlink').2.1 (List.cons.inj (nameOf_inj.1 hname)).2
  rw [htag] at hlink
  exact Prod.ext (Prod.ext (hrepository.trans hrepository'.symm) htag)
    (Option.some.inj (hlink.symm.trans hlink'))

/-- The link files that stand in the directory of a repository are those of its tags. -/
theorem linkFiles_perm (h : Filed root links t) (hrepository : IsRepository repository)
    {children : List (ByteArray × Node)}
    (hchildren : t.children (directory root repository).toUTF8 = .ok children) :
    (children.filterMap (Resolver.linkFile? (directory root repository))).Perm
      ((linksOf links repository).map fun e ↦ path root repository e.1.2) := by
  obtain ⟨place, hlocate, -, hnodup, hmem⟩ := Files.Tree.children_eq_ok hchildren
  obtain ⟨top, hroot, rfl⟩ := h.of_locate_directory hrepository hlocate
  refine (List.perm_ext_iff_of_nodup ?_ (h.nodup_files repository)).2 fun file ↦ ?_
  · refine Files.Tree.nodup_filterMap hnodup ?_
    rintro ⟨name, node⟩ ⟨other, node'⟩ file hfile hother
    obtain ⟨-, text, -, rfl, -, rfl⟩ := linkFile?_eq_some_iff.1 hfile
    obtain ⟨-, text', -, rfl, -, hsame⟩ := linkFile?_eq_some_iff.1 hother
    rw [String.toList_inj.1 (push_inj (String.ofList_inj.1 hsame))]
  · rw [h.mem_linkFiles_iff hrepository hroot hmem, List.mem_map]
    constructor
    · rintro ⟨f, i, hi, rfl⟩
      exact ⟨((repository, f), i), mem_linksOf_iff.2 ⟨rfl, hi⟩, rfl⟩
    · rintro ⟨e, he, rfl⟩
      exact ⟨e.1.2, e.2, (mem_linksOf_iff.1 he).2, rfl⟩

/-- What a resolver that can list a repository finds are the identifiers of its tags, one for each
tag. -/
theorem readDirectory_of_children (h : Filed root links t) (hrepository : IsRepository repository)
    {children : List (ByteArray × Node)}
    (hchildren : t.children (directory root repository).toUTF8 = .ok children) :
    ∃ found, Resolver.readDirectory t (directory root repository) = .ok found ∧
      found.Perm ((linksOf links repository).map Prod.snd) := by
  have hperm := h.linkFiles_perm hrepository hchildren
  -- What each file tells; it is no error for any of them.
  let told (file : String) : List String := (Resolver.readIdentifiers t file).toOption.getD []
  have htold : ∀ e ∈ linksOf links repository,
      Resolver.readIdentifiers t (path root repository e.1.2) = .ok [e.2] := fun e he ↦
    h.readIdentifiers (mem_linksOf_iff.1 he).2
  have hfiles : (children.filterMap (Resolver.linkFile? (directory root repository))).mapM
        (Resolver.readIdentifiers t) =
      .ok ((children.filterMap (Resolver.linkFile? (directory root repository))).map told) := by
    refine mapM_eq_ok fun file hfile ↦ ?_
    obtain ⟨e, he, rfl⟩ := List.mem_map.1 (hperm.subset hfile)
    simp only [told, htold e he]
    rfl
  refine ⟨_, ?_, (hperm.map told).flatten.trans (.of_eq ?_)⟩
  · rw [Resolver.readDirectory, hchildren]
    simp only [hfiles]
    rfl
  · rw [List.map_map, List.map_eq_flatMap (f := Prod.snd), List.flatMap_def]
    refine congrArg List.flatten (List.map_congr_left fun e he ↦ ?_)
    simp only [Function.comp_apply, told, htold e he]
    rfl

/-- The directory of a repository that has parts has a path. -/
theorem directory_ne_empty (root : String) (hrepository : IsRepository repository) :
    directory root repository ≠ "" := by
  intro hempty
  have htrunk := trunk_directory root repository
  rw [hempty] at htrunk
  exact parts_ne_nil hrepository (List.append_eq_nil_iff.1 htrunk.symm).2

/-- The directory of a repository that has a tag can be listed. -/
theorem exists_children (h : Filed root links t)
    (hlink : links.get? (repository, reference) = some identifier) :
    ∃ children, t.children (directory root repository).toUTF8 = .ok children := by
  obtain ⟨hrepository, -, -⟩ := h.tags hlink
  obtain ⟨top, -, hlocate, -⟩ := h.there hlink
  obtain ⟨more, place, hplace, hstands, -⟩ :=
    locate_directory (directory_ne_empty root hrepository) hlocate
  exact Files.Tree.exists_children hplace hstands.directory

/-- A resolver lists the identifiers of the tags of a repository, if it has one. -/
theorem lookUp_listing (h : Filed root links t)
    (hlink : links.get? (repository, reference) = some identifier) :
    ∃ found, Resolver.lookUp t root repository "" = .ok found ∧
      found.Perm ((linksOf links repository).map Prod.snd) := by
  obtain ⟨children, hchildren⟩ := h.exists_children hlink
  exact h.readDirectory_of_children (h.tags hlink).1 hchildren

/-- What a resolver lists of a repository are the identifiers of its tags. -/
theorem perm_of_lookUp (h : Filed root links t) (hrepository : IsRepository repository)
    {found : List String} (hfound : Resolver.lookUp t root repository "" = .ok found) :
    found.Perm ((linksOf links repository).map Prod.snd) := by
  cases hchildren : t.children (directory root repository).toUTF8 with
  | ok children =>
    obtain ⟨found', hfound', hperm⟩ := h.readDirectory_of_children hrepository hchildren
    rwa [Except.ok.inj (hfound.symm.trans hfound')]
  | error failure =>
    -- Without the directory the repository has no tag, and nothing is found.
    have hlinks : linksOf links repository = [] := by
      refine List.eq_nil_iff_forall_not_mem.2 fun e he ↦ ?_
      obtain ⟨children, hlisted⟩ := h.exists_children (mem_linksOf_iff.1 he).2
      cases hchildren.symm.trans hlisted
    have hnothing : found = [] := by
      rw [Resolver.lookUp, if_pos (by decide), Resolver.readDirectory, hchildren] at hfound
      cases failure <;> cases hfound
      rfl
    rw [hlinks, hnothing]
    exact .nil

/-- Nothing but directories stands on the way to the directory of a repository. -/
theorem directory_of_prefix (h : Filed root links t) (hroot : Rooted root t top)
    (hrepository : IsRepository repository) {above : Place} (hne : above ≠ [])
    (habove : above <+: (parts repository).map encoded) :
    t.node? (top ++ above) = none ∨ t.node? (top ++ above) = some .directory := by
  cases hnode : t.node? (top ++ above) with
  | none => exact Or.inl rfl
  | some node =>
    rcases h.of_beneath hroot hne hnode with rfl | ⟨s, g, i, -, rfl, -⟩
    · exact Or.inr rfl
    · -- No part of the repository is the name of a link file.
      have hmem : nameOf g ∈ (parts repository).map encoded := by
        refine habove.subset ?_
        rw [spot_eq]
        exact List.mem_append_right _ List.mem_cons_self
      obtain ⟨part, hpart, hname⟩ := List.mem_map.1 hmem
      obtain rfl : part = fileName g := encoded_inj.1 hname
      exact absurd rfl (hrepository _ (List.mem_filter.1 hpart).1).2

/-- Where nothing can come behind the root, listing it fails alike. -/
theorem children_root_of_fails {failure : Files.Failure}
    (hasked : Files.askedParts root.toUTF8 = .ok (Files.parts root.toUTF8))
    (hwalks : ∀ tail : List ByteArray, tail ≠ [] →
      t.walk true maxLinks [] ((trunk root.toList).map encoded ++ tail) = .error failure)
    (hends : Unlistable t maxLinks [] ((trunk root.toList).map encoded) failure) :
    t.children root.toUTF8 = .error failure := by
  have hlocate : t.locate true root.toUTF8 =
      t.walk true maxLinks [] ((Text.segments '/' root.toList).map encoded) := by
    rw [Tree.locate, hasked, ← parts_encoded, encoded_toList]
    rfl
  rcases segments_eq_trunk root.toList with hroot | ⟨hroot, -⟩
  · rw [hroot] at hlocate
    exact Files.Tree.children_of_unlistable hlocate hends
  · rw [hroot, List.map_append, hwalks _ (by simp)] at hlocate
    exact Files.Tree.children_of_error hlocate

/-- Once a tag is filed, and also before if the root is listable, paths go on behind the root or it
is found that nothing is there. -/
theorem behind_root (h : Filed root links t)
    (hroot : (∃ s g i, links.get? (s, g) = some i) ∨ Listable t root)
    {asked : List ByteArray}
    (hasked : Files.askedParts (directory root repository).toUTF8 = .ok asked) :
    (∃ more top, Rooted root t top ∧ ∀ tail : List ByteArray,
      t.walk true maxLinks [] ((trunk root.toList).map encoded ++ tail) =
        t.walk true more top tail) ∨
    ∀ tail : List ByteArray, tail ≠ [] →
      t.walk true maxLinks [] ((trunk root.toList).map encoded ++ tail) = .error .notFound := by
  cases Files.Tree.behind t maxLinks [] ((trunk root.toList).map encoded) with
  | goesOn more top _ hwalks => exact Or.inl ⟨more, top, rooted_of_goesOn hwalks, hwalks⟩
  | fails failure hwalks hends =>
    suffices hfailure : failure = .notFound from Or.inr (hfailure ▸ hwalks)
    rcases hroot with ⟨s, g, i, hlink⟩ | hlistable
    · -- The path of the link file goes on behind the root.
      obtain ⟨top, -, hlocate, -⟩ := h.there hlink
      have hwalk := (Files.Tree.locate_eq_ok_iff.1 hlocate).2
      rw [parts_path, List.map_append, List.append_assoc, ← spot_eq,
        hwalks _ (spot_ne_nil s g)] at hwalk
      cases hwalk
    · cases hempty : root.toUTF8.isEmpty with
      | true =>
        -- The empty path leads to where it begins.
        have hnil : root.toList = [] := by
          rw [← encoded_inj, encoded_toList, Files.isEmpty_eq_true_iff.1 hempty]
          rfl
        have hwalk := hwalks [ByteArray.empty] (List.cons_ne_nil _ _)
        rw [hnil, show trunk [] = [] from rfl, List.map_nil, List.nil_append,
          Files.Tree.walk_stays rfl, Tree.walk_nil] at hwalk
        cases hwalk
      | false =>
        refine hlistable failure (children_root_of_fails ?_ hwalks hends)
        exact Files.askedParts_of_prefix (prefix_byteList_root root repository) hempty hasked

/-- A resolver lists every repository whose directory can be asked for, also if it is not there. -/
theorem lookUp_of_asked (h : Filed root links t)
    (hroot : (∃ s g i, links.get? (s, g) = some i) ∨ Listable t root)
    (hrepository : IsRepository repository) {asked : List ByteArray}
    (hasked : Files.askedParts (directory root repository).toUTF8 = .ok asked)
    (hsize : ∀ part ∈ parts repository, (encoded part).size ≤ Files.maxName) :
    ∃ found, Resolver.lookUp t root repository "" = .ok found := by
  have hne : (parts repository).map encoded ≠ [] := fun hnil ↦
    parts_ne_nil hrepository (List.map_eq_nil_iff.1 hnil)
  have hnames : ∀ name ∈ (parts repository).map encoded,
      Files.IsName name ∧ name.size ≤ Files.maxName := fun name hname ↦ by
    obtain ⟨part, hpart, rfl⟩ := List.mem_map.1 hname
    exact ⟨isName_of_mem_parts hpart, hsize part hpart⟩
  have hlocated : t.locate true (directory root repository).toUTF8 =
      t.walk true maxLinks []
        ((trunk root.toList).map encoded ++ (parts repository).map encoded) := by
    rw [Tree.locate, hasked, Files.askedParts_eq_ok hasked,
      parts_directory root (parts_ne_nil hrepository), List.map_append]
    rfl
  have hlisted : (∃ children, t.children (directory root repository).toUTF8 = .ok children) ∨
      t.children (directory root repository).toUTF8 = .error .notFound := by
    rcases h.behind_root hroot hasked with ⟨more, top, hroot, hwalks⟩ | hmissing
    · have hdirectory (above : Place) (hne : above ≠ [])
          (habove : above <+: (parts repository).map encoded) :
          t.node? (top ++ above) = none ∨ t.node? (top ++ above) = some .directory :=
        h.directory_of_prefix hroot hrepository hne habove
      rw [hwalks] at hlocated
      rcases Files.Tree.walk_names more hnames hdirectory with hwalk | hwalk
      · rw [hwalk] at hlocated
        rcases hdirectory _ hne (List.prefix_refl _) with hnone | hthere
        · exact Or.inr (Files.Tree.children_of_missing hlocated hnone)
        · exact Or.inl (Files.Tree.exists_children hlocated hthere)
      · exact Or.inr (Files.Tree.children_of_error (hlocated.trans hwalk))
    · exact Or.inr (Files.Tree.children_of_error (hlocated.trans (hmissing _ hne)))
  rcases hlisted with ⟨children, hchildren⟩ | hmissing
  · obtain ⟨found, hfound, -⟩ := h.readDirectory_of_children hrepository hchildren
    exact ⟨found, hfound⟩
  · refine ⟨[], ?_⟩
    rw [Resolver.lookUp, if_pos (by decide), Resolver.readDirectory, hmissing]

end Filed

end Link

end ImageRegistry
