import ImageRegistry.Proofs.Link.Restart
import ImageRegistry.Proofs.Pairing
import ImageRegistry.Proofs.Remote.Deadline
import ImageRegistry.Proofs.Resolver.Reads

/-!
# Listings and look-ups

Asked for the empty reference, a resolver lists what it knows of a repository. What it finds for a
reference should be among that (`covering`).

A resolver of a storage makes both answers of one listing of the storage, so they differ only if the
storage answers differently the second time (`paired_ask`). A resolver of link files goes to a file
by its path the one time, and to all files of a directory the other time, and it takes no symbolic
link for a file then. So it finds what a link file says that is a symbolic link, and does not list
it (`covering_symbolic_link`). Of the files that it can read this is the only one that it leaves
out, beside those in a directory that has the empty path (`isListed_path_iff`).
-/

namespace ImageRegistry

open ImageRegistry.Action
open Files (Tree)

/-! ### Storages that answer alike -/

namespace Storage

/-- A node without the record of what its service was asked. -/
def Node.unlogged (n : Node) : Node := { n with service := ⟨n.service.respond, []⟩ }

/-- A storage without the record of what it was asked. -/
def unlogged : Storage → Storage
  | memory tree => memory tree
  | node n => node n.unlogged

theorem Node.listUrl_unlogged (n : Node) (identifier : String) :
    n.unlogged.listUrl identifier = n.listUrl identifier := by
  have haddress : n.unlogged.address identifier = n.address identifier := by
    rw [address, address, unlogged]
  rw [listUrl, listUrl, haddress]

/-- What a node lists does not depend on what it was asked before. -/
theorem Node.paired_list {n m : Node} (h : n.unlogged = m.unlogged) (identifier : String) :
    Paired (fun n' m' ↦ unlogged n' = n.unlogged ∧ unlogged m' = m.unlogged) Eq
      ((list identifier).run n) ((list identifier).run m) := by
  have hsame : n.listUrl identifier = m.listUrl identifier := by
    rw [← listUrl_unlogged, h, listUrl_unlogged]
  have hrespond : n.service.respond = m.service.respond := congrArg (·.service.respond) h
  cases hurl : m.listUrl identifier with
  | error error =>
    rw [list, run_bind, run_bind, run_state, run_state]
    dsimp only
    rw [hsame, hurl]
    exact .failed error ⟨rfl, rfl⟩
  | ok uri =>
    rw [run_list_of_url (hsame.trans hurl), run_list_of_url hurl, hrespond]
    rcases m.service.respond ⟨.post, uri.target⟩ with
      ⟨head, body | ⟨body, reason⟩ | body⟩ | fault | _
    · dsimp only
      cases entries head.status body identifier with
      | error error => exact .failed error ⟨rfl, rfl⟩
      | ok entries => exact .done rfl ⟨rfl, rfl⟩
    · exact .failed _ ⟨rfl, rfl⟩
    · exact .stuck ⟨rfl, rfl⟩
    · exact .failed _ ⟨rfl, rfl⟩
    · exact .failed _ ⟨rfl, rfl⟩

theorem paired_list {s t : Storage} (h : s.unlogged = t.unlogged) (identifier : String) :
    Paired (fun s' t' ↦ unlogged s' = s.unlogged ∧ unlogged t' = t.unlogged) Eq
      ((list identifier).run s) ((list identifier).run t) := by
  cases s with
  | memory tree =>
    cases t with
    | node m => cases h
    | memory other =>
      cases h
      show Paired _ _ ((ofExcept id (tree.list identifier)).run (memory tree))
        ((ofExcept id (tree.list identifier)).run (memory tree))
      cases tree.list identifier with
      | error error => exact .failed error ⟨rfl, rfl⟩
      | ok entries => exact .done rfl ⟨rfl, rfl⟩
  | node n =>
    cases t with
    | memory tree => cases h
    | node m =>
      have hnodes := Node.paired_list (Storage.node.inj h) identifier
      rcases hn : (Node.list identifier).run n with ⟨outcome, changed⟩
      rcases hm : (Node.list identifier).run m with ⟨outcome', changed'⟩
      rw [run_list_node hn, run_list_node hm]
      rw [hn, hm] at hnodes
      have hstate (state : changed.unlogged = n.unlogged ∧ changed'.unlogged = m.unlogged) :
          unlogged (node changed) = unlogged (node n) ∧
            unlogged (node changed') = unlogged (node m) :=
        ⟨congrArg node state.1, congrArg node state.2⟩
      cases hnodes with
      | done value state => exact .done value (hstate state)
      | failed error state => exact .failed error (hstate state)
      | stuck state => exact .stuck (hstate state)

end Storage

namespace World

variable {w v : World} {index : Nat}

/-- The storage of a number answers the same in both worlds. -/
def SameAnswers (index : Nat) (w v : World) : Prop :=
  (w.storage index).unlogged = (v.storage index).unlogged

theorem unlogged_setStorage {storage : Storage}
    (h : storage.unlogged = (w.storage index).unlogged) (other : Nat) :
    ((w.setStorage index storage).storage other).unlogged = (w.storage other).unlogged := by
  rw [World.storage, List.getD_eq_getElem?_getD] at h
  rw [World.storage, World.storage, List.getD_eq_getElem?_getD, List.getD_eq_getElem?_getD,
    setStorage]
  by_cases hother : index = other
  · subst hother
    rw [List.getElem?_set_self']
    cases hindex : w.storages[index]? with
    | none => rfl
    | some held =>
      rw [hindex] at h
      exact h
  · rw [List.getElem?_set_ne hother]

/-- To list a directory changes no answers. -/
theorem keeps_answers_onStorage (storage index : Nat) (path : String) :
    Keeps (fun w ↦ (w.storage index).unlogged) (onStorage storage (Storage.list path)) := by
  intro w
  have hkept : ((Storage.list path).run (w.storage storage)).2.unlogged =
      (w.storage storage).unlogged := by
    have hpaired := Storage.paired_list (s := w.storage storage) rfl path
    generalize (Storage.list path).run (w.storage storage) = result at hpaired ⊢
    cases hpaired with
    | done value state | failed error state | stuck state => exact state.1
  exact unlogged_setStorage hkept index

/-- The listing of a directory goes the same way where the answers are the same. -/
theorem paired_onStorage (h : SameAnswers index w v) (path : String) :
    Paired (SameAnswers index) Eq ((onStorage index (Storage.list path)).run w)
      ((onStorage index (Storage.list path)).run v) := by
  refine (Storage.paired_list h path).within fun s t hstate ↦ ?_
  rw [SameAnswers, unlogged_setStorage hstate.1, unlogged_setStorage hstate.2]
  exact h

end World

namespace Resolver

variable {w v : World} {storage : Nat}

/-- A look-up changes no answers, so they are the same for one that comes after it. -/
theorem Known.sameAnswers {r : Resolver} (h : r.Known) (storage : Nat)
    (repository reference : String) (w : World) :
    World.SameAnswers storage w ((r.ask repository reference).run w).2 :=
  ((composes_keeps fun w : World ↦ (w.storage storage).unlogged).ask
    (fun asked path ↦ World.keeps_answers_onStorage asked storage path) h repository reference
    w).symm

theorem selected_subset (reference : String) (entries : List Storage.Entry) :
    selected reference entries ⊆ selected "" entries := by
  refine List.map_subset _ fun e he ↦ ?_
  rw [List.mem_filter] at he ⊢
  exact ⟨he.1, rfl⟩

theorem paired_isImage (h : World.SameAnswers storage w v) (repository : String) :
    Paired (World.SameAnswers storage) Eq ((isImage storage repository).run w)
      ((isImage storage repository).run v) := by
  rw [isImage]
  split
  · exact .done rfl h
  · refine (World.paired_onStorage h repository).attempt.bind ?_
    rintro listed _ w v rfl h
    cases listed with
    | error error => exact .done rfl h
    | ok entries => exact .done rfl h

/-- A resolver of a storage finds for a reference something of what it lists, or it fails both
times, as long as the answers are the same. -/
theorem paired_ask (h : World.SameAnswers storage w v) (root : Option String)
    (repository reference : String) :
    Paired (World.SameAnswers storage) (fun all found ↦ found ⊆ all)
      (((ofStorage storage root).ask repository "").run w)
      (((ofStorage storage root).ask repository reference).run v) := by
  refine (paired_isImage h repository).bind ?_
  rintro image _ w v rfl h
  cases image with
  | true => exact .done (List.Subset.refl _) h
  | false =>
    refine (World.paired_onStorage h _).attempt.bind ?_
    rintro listed _ w v rfl h
    cases listed with
    | ok entries => exact .done (selected_subset reference entries) h
    | error error =>
      dsimp only
      split
      · exact .done (List.Subset.refl _) h
      · exact .failed _ h

end Resolver

/-! ### Link files that a listing comes upon -/

namespace Link

variable {root repository reference file text : String} {t : Tree} {all : List String}

/-- A listing of a repository looks at the files in its directory that have the name of a link file.
A symbolic link is no file to it. -/
def IsListed (root repository : String) (t : Tree) (file : String) : Prop :=
  ∃ place content text, t.locate true (directory root repository).toUTF8 = .ok place ∧
    t.node? place = some .directory ∧
    t.node? (place ++ [String.toUTF8 text]) = some (.file content) ∧
    (Text.byteList text.toUTF8).head? = some 0x40 ∧
    file = String.ofList (push (directory root repository).toList text.toList)

/-- The directory of the repository does not have the empty path, and no symbolic link stands there
with the name of the link file of the reference. -/
structure InSight (root repository reference : String) (t : Tree) : Prop where
  named : directory root repository ≠ ""
  unlinked : ∀ place target, t.locate true (directory root repository).toUTF8 = .ok place →
    t.node? (place ++ [nameOf reference]) ≠ some (.link target)

/-- Of what stands in the directory a listing looks at the link files. -/
theorem mem_linkFiles_iff_isListed {children : List (ByteArray × Files.Node)}
    (h : t.children (directory root repository).toUTF8 = .ok children) :
    file ∈ children.filterMap (Resolver.linkFile? (directory root repository)) ↔
      IsListed root repository t file := by
  obtain ⟨place, hlocate, hdirectory, -, hmem⟩ := Files.Tree.children_eq_ok h
  rw [List.mem_filterMap]
  constructor
  · rintro ⟨⟨name, node⟩, hchild, hfile⟩
    obtain ⟨content, text, rfl, rfl, hmark, rfl⟩ := linkFile?_eq_some_iff.1 hfile
    exact ⟨place, content, text, hlocate, hdirectory, (hmem _ _).1 hchild, hmark, rfl⟩
  · rintro ⟨place', content, text, hlocate', -, hnode, hmark, rfl⟩
    obtain rfl : place = place' := Except.ok.inj (hlocate.symm.trans hlocate')
    exact ⟨_, (hmem _ _).2 hnode, linkFile?_eq_some_iff.2 ⟨content, text, rfl, rfl, hmark, rfl⟩⟩

/-- What is listed of a repository is what the files say that the listing looks at. -/
theorem mem_readDirectory_iff
    (h : Resolver.readDirectory t (directory root repository) = .ok all) {identifier : String} :
    identifier ∈ all ↔ ∃ file found, IsListed root repository t file ∧
      Resolver.readIdentifiers t file = .ok found ∧ identifier ∈ found := by
  rw [Resolver.readDirectory] at h
  cases hchildren : t.children (directory root repository).toUTF8 with
  | ok children =>
    rw [hchildren] at h
    obtain ⟨lists, hlists, hall⟩ := bind_eq_ok_iff.1 h
    rw [← Except.ok.inj hall, List.mem_flatten]
    simp only [mem_of_mapM_eq_ok hlists, mem_linkFiles_iff_isListed hchildren]
    constructor
    · rintro ⟨found, ⟨file, hfile, hread⟩, hidentifier⟩
      exact ⟨file, found, hfile, hread, hidentifier⟩
    · rintro ⟨file, found, hfile, hread, hidentifier⟩
      exact ⟨found, ⟨file, hfile, hread⟩, hidentifier⟩
  | error failure =>
    -- Where there is no directory to list, there are no files to look at.
    have hnothing : ∀ file, ¬ IsListed root repository t file := by
      rintro file ⟨place, content, text, hlocate, hdirectory, -⟩
      obtain ⟨children, hlisted⟩ := Files.Tree.exists_children hlocate hdirectory
      cases hchildren.symm.trans hlisted
    rw [hchildren] at h
    cases failure <;> cases h
    constructor
    · intro hidentifier
      cases hidentifier
    · rintro ⟨file, found, hfile, -⟩
      exact absurd hfile (hnothing file)

/-- A link file that can be read stands in the directory of the repository, unless a symbolic link
does. -/
theorem exists_file (hsight : InSight root repository reference t)
    (hread : t.readText (path root repository reference) = .ok text) :
    ∃ place content, t.locate true (directory root repository).toUTF8 = .ok place ∧
      t.node? place = some .directory ∧
      t.node? (place ++ [nameOf reference]) = some (.file content) := by
  obtain ⟨content, hcontent, -⟩ := bind_eq_ok_iff.1 hread
  obtain ⟨q, hlocate, hfile⟩ := Files.Tree.read_eq_ok_iff.1 hcontent
  obtain ⟨more, place, hplace, hstands, hwalk⟩ := locate_directory hsight.named hlocate
  refine ⟨place, content, hplace, hstands.directory, ?_⟩
  have hq := (Files.Tree.leads_of_walk hwalk).of_name (isName_nameOf reference) fun target ↦
    hsight.unlinked place target hplace
  rwa [hq] at hfile

/-- Of the link files that can be read, those that are in sight are listed, and no others. -/
theorem isListed_path_iff (hread : t.readText (path root repository reference) = .ok text) :
    IsListed root repository t (path root repository reference) ↔
      InSight root repository reference t := by
  constructor
  · rintro ⟨place, content, name, hlocate, -, hnode, -, hfile⟩
    have hname : nameOf reference = name.toUTF8 := by
      rw [nameOf, push_inj (String.ofList_inj.1 hfile), String.ofList_toList]
    refine ⟨fun hempty ↦ ?_, fun place' target hlocate' hlink ↦ ?_⟩
    · rw [hempty] at hlocate
      cases hlocate
    · obtain rfl : place = place' := Except.ok.inj (hlocate.symm.trans hlocate')
      rw [hname, hnode] at hlink
      cases hlink
  · intro hsight
    obtain ⟨place, content, hlocate, hdirectory, hnode⟩ := exists_file hsight hread
    refine ⟨place, content, String.ofList (fileName reference), hlocate, hdirectory, hnode, ?_, ?_⟩
    · rw [← nameOf, byteList_nameOf]
      rfl
    · rw [path, String.toList_ofList]

end Link

/-! ### Every look-up -/

namespace Resolver

open Link (InSight IsListed directory path)

variable {root repository reference : String} {t : Tree} {all found : List String}

theorem lookUp_empty (t : Tree) (root repository : String) :
    lookUp t root repository "" = readDirectory t (directory root repository) :=
  if_pos (by decide)

/-- What is found for a reference whose link file is in sight is listed. -/
theorem subset_of_lookUp (hreference : reference ≠ "")
    (hsight : InSight root repository reference t)
    (hall : lookUp t root repository "" = .ok all)
    (hfound : lookUp t root repository reference = .ok found) : found ⊆ all := by
  rw [lookUp_empty] at hall
  rw [lookUp, if_neg (by simpa using hreference)] at hfound
  intro identifier hidentifier
  refine (Link.mem_readDirectory_iff hall).2 ⟨path root repository reference, found, ?_, hfound,
    hidentifier⟩
  rw [readIdentifiers] at hfound
  split at hfound
  · next text hread => exact (Link.isListed_path_iff hread).2 hsight
  · -- What is not there says nothing.
    cases hfound
    cases hidentifier
  · cases hfound

/-- What resolvers list of a repository, and what they find there for a reference. -/
structure Covering (repository reference : String) : Prop where
  /-- A resolver of a storage lists what it finds, as long as the storage answers the same. -/
  storage : ∀ (w v : World) storage root, World.SameAnswers storage w v → ∀ all found,
    (((ofStorage storage root).ask repository "").run w).1 = .done all →
      (((ofStorage storage root).ask repository reference).run v).1 = .done found → found ⊆ all
  /-- A resolver of link files lists what it finds in the same files, if the link file is in
  sight. -/
  files : ∀ (w v : World) root, w.files = v.files → InSight root repository reference w.files →
    ∀ all found, (((ofFiles root).ask repository "").run w).1 = .done all →
      (((ofFiles root).ask repository reference).run v).1 = .done found → found ⊆ all
  /-- It lists what is said by the files that a listing looks at, and nothing else. -/
  listed : ∀ (w : World) root all, (((ofFiles root).ask repository "").run w).1 = .done all →
    ∀ identifier, identifier ∈ all ↔ ∃ file found, IsListed root repository w.files file ∧
      readIdentifiers w.files file = .ok found ∧ identifier ∈ found
  /-- If it can read the link file, a listing looks at that exactly if it is in sight. -/
  sight : ∀ (w : World) root text, w.files.readText (path root repository reference) = .ok text →
    (IsListed root repository w.files (path root repository reference) ↔
      InSight root repository reference w.files)

theorem covering (repository : String) (hreference : reference ≠ "") :
    Covering repository reference := by
  constructor
  · intro w v storage root hanswers all found hall hfound
    have hpaired := paired_ask hanswers root repository reference
    rcases hrun : ((ofStorage storage root).ask repository "").run w with ⟨outcome, w'⟩
    rcases hrun' : ((ofStorage storage root).ask repository reference).run v with ⟨outcome', v'⟩
    rw [hrun] at hall hpaired
    rw [hrun'] at hfound hpaired
    cases hall
    cases hfound
    cases hpaired with
    | done value state => exact value
  · intro w v root hfiles hsight all found hall hfound
    rw [Link.fst_run_ask_ofFiles_eq_done] at hall hfound
    rw [← hfiles] at hfound
    exact subset_of_lookUp hreference hsight hall hfound
  · intro w root all hall identifier
    rw [Link.fst_run_ask_ofFiles_eq_done, lookUp_empty] at hall
    exact Link.mem_readDirectory_iff hall
  · intro w root text hread
    exact Link.isListed_path_iff hread

/-- A repository with two tags, in link files and in a storage. One of them is looked up after both
were listed. -/
theorem covering_two_tags :
    let files : Tree := ⟨(((Table.insert ∅ ["links".toUTF8] .directory).insert
      ["links".toUTF8, "app".toUTF8] .directory).insert
        ["links".toUTF8, "app".toUTF8, "@v1".toUTF8] (.file "bafyone\nbafytwo\n".toUTF8)).insert
        ["links".toUTF8, "app".toUTF8, "@v2".toUTF8] (.file "bafythree\n".toUTF8)⟩
    let stored : Storage.Memory := ⟨(((Table.insert ∅ "bafyone" (.file "one".toUTF8)).insert
      "bafythree" (.file "three".toUTF8)).insert
        "bafyapp" (.directory [("v1", "bafyone"), ("v2", "bafythree")])).insert
          "root" (.directory [("app", "bafyapp")])⟩
    let w : World := ⟨files, ⟨fun _ ↦ .stalled, []⟩, [.memory stored], 0, fun _ ↦ "fresh", 0⟩
    let ofLinks := ofFiles "links"
    let ofRoot := ofStorage 0 (some "root")
    ((ofLinks.ask "app" "").run w).1 = .done ["bafyone", "bafytwo", "bafythree"] ∧
      ((ofLinks.ask "app" "v1").run w).1 = .done ["bafyone", "bafytwo"] ∧
      ["bafyone", "bafytwo"] ⊆ ["bafyone", "bafytwo", "bafythree"] ∧
      ((ofRoot.ask "app" "").run w).1 = .done ["bafyone", "bafythree"] ∧
      ((ofRoot.ask "app" "v1").run ((ofRoot.ask "app" "").run w).2).1 = .done ["bafyone"] ∧
      ["bafyone"] ⊆ ["bafyone", "bafythree"] := by
  intro files stored w ofLinks ofRoot
  have hlinks : ((ofLinks.ask "app" "").run w).1 = .done ["bafyone", "bafytwo", "bafythree"] := by
    simp only [ofLinks, w, files]
    decide +kernel
  have hlink : ((ofLinks.ask "app" "v1").run w).1 = .done ["bafyone", "bafytwo"] := by
    simp only [ofLinks, w, files]
    decide +kernel
  have hentries : ((ofRoot.ask "app" "").run w).1 = .done ["bafyone", "bafythree"] := by
    simp only [ofRoot, w, stored]
    decide +kernel
  have hentry : ((ofRoot.ask "app" "v1").run ((ofRoot.ask "app" "").run w).2).1 =
      .done ["bafyone"] := by
    simp only [ofRoot, w, stored]
    decide +kernel
  have hsight : InSight "links" "app" "v1" files := by
    have hlocate : files.locate true (directory "links" "app").toUTF8 =
        .ok ["links".toUTF8, "app".toUTF8] := by
      simp only [files]
      decide +kernel
    have hnode : files.node? ["links".toUTF8, "app".toUTF8, "@v1".toUTF8] =
        some (.file "bafyone\nbafytwo\n".toUTF8) := by
      simp only [files]
      decide +kernel
    refine ⟨by decide, fun place target hplace htarget ↦ ?_⟩
    cases hlocate.symm.trans hplace
    cases hnode.symm.trans htarget
  have hcovering := covering "app" (show "v1" ≠ "" by decide)
  have hanswers := (Known.ofStorage 0 (some "root")).sameAnswers 0 "app" "" w
  exact ⟨hlinks, hlink, hcovering.files w w "links" rfl hsight _ _ hlinks hlink, hentries, hentry,
    hcovering.storage _ _ 0 (some "root") hanswers _ _ hentries hentry⟩

/-- A symbolic link to a file is looked up, and it is not listed. -/
theorem covering_symbolic_link :
    let files : Tree := ⟨(((Table.insert ∅ ["image".toUTF8] (.file "bafyone\n".toUTF8)).insert
      ["links".toUTF8] .directory).insert ["links".toUTF8, "app".toUTF8] .directory).insert
        ["links".toUTF8, "app".toUTF8, "@v1".toUTF8] (.link "../../image".toUTF8)⟩
    let w : World := ⟨files, ⟨fun _ ↦ .stalled, []⟩, [], 0, fun _ ↦ "fresh", 0⟩
    (((ofFiles "links").ask "app" "").run w).1 = .done [] ∧
      (((ofFiles "links").ask "app" "v1").run w).1 = .done ["bafyone"] := by
  intro files w
  simp only [w, files]
  refine ⟨?_, ?_⟩
  · decide +kernel
  · decide +kernel

end Resolver

end ImageRegistry
