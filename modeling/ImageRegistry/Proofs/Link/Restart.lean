import ImageRegistry.Proofs.Link.Listing
import ImageRegistry.World
import Mathlib.Data.List.Induction

/-!
# Links after a restart

A cache forgets what it remembers in memory, and its link files stay. When links were added to a
root beneath which nothing stood, and none of the additions failed, a new cache over the same root
tells the identifier that was added last for each tag, and a resolver of link files finds the same
one and lists one identifier for each tag of a repository (`restarted`). Repositories that are
nested share directories and are told apart all the same; digests leave no file. One addition keeps
what is filed (`Filed.add`), so all of them do (`filed_addAll`, by induction), and what is filed is
all that is read.

Nothing stands beneath a root if the tree is empty, if the root leads to an empty directory, or if
it leads to nothing in a tree without symbolic links (`vacant_empty`, `vacant_of_directory`,
`vacant_of_missing`).
-/

namespace ImageRegistry.Link

open ImageRegistry.Action
open Files (Node Place Tree)
open Files.Tree (Furnishes Leads maxLinks)

variable {root repository reference identifier : String} {t u : Tree} {c : Cache} {top : Place}
  {links : Table (String × String) String}

/-! ### Roots with nothing beneath -/

/-- Nothing stands beneath the place that the root leads to, or would lead to if directories were
made. -/
def Vacant (root : String) (t : Tree) : Prop :=
  ∀ made top, Furnishes t made →
    made.walk true maxLinks [] (Files.parts root.toUTF8) = .ok top →
    ∀ below, below ≠ [] → t.node? (top ++ below) = none

theorem vacant_empty (root : String) : Vacant root ∅ := by
  intro made top _ _ below hbelow
  obtain ⟨name, rest, rfl⟩ := List.exists_cons_of_ne_nil hbelow
  cases top <;> rfl

theorem vacant_of_directory (hwalk : t.walk true maxLinks [] (Files.parts root.toUTF8) = .ok top)
    (hempty : ∀ below, below ≠ [] → t.node? (top ++ below) = none) : Vacant root t := by
  intro made other hmade hother
  have htop := (Files.Tree.leads_of_walk hwalk).grows hmade.grows
  rw [← htop.unique (Files.Tree.leads_of_walk hother)]
  exact hempty

theorem vacant_of_missing
    (hclosed : ∀ place name, t.node? (place ++ [name]) ≠ none → t.node? place = some .directory)
    (hlinks : ∀ place target, t.node? place ≠ some (.link target))
    (hup : Files.up ∉ Files.parts root.toUTF8)
    (hmissing : t.node? ((Files.parts root.toUTF8).filter (!Files.staysHere ·)) = none) :
    Vacant root t := by
  intro made top hmade htop below hbelow
  have hmadeLinks (place : Place) (target : ByteArray) : made.node? place ≠ some (.link target) :=
    fun hlink ↦ by
      rcases hmade.made hlink with ht | hdirectory
      · exact hlinks place target ht
      · cases hdirectory
  rw [(Files.Tree.leads_of_walk htop).of_unlinked hup hmadeLinks, List.nil_append]
  induction below using List.reverseRecOn with
  | nil => exact absurd rfl hbelow
  | append_singleton front name ih =>
    by_contra hthere
    rw [← List.append_assoc] at hthere
    have hfront := hclosed _ name hthere
    by_cases hnil : front = []
    · rw [hnil, List.append_nil, hmissing] at hfront
      cases hfront
    · rw [ih hnil] at hfront
      cases hfront

theorem Vacant.filed (h : Vacant root t) : Filed root ∅ t where
  tags hlink := by cases hlink
  beneath hmade hroot below node hbelow hnode := by
    have hnone := h _ _ hmade (Files.Tree.walk_of_leads hroot) below hbelow
    cases hnone.symm.trans hnode
  there hlink := by cases hlink

/-! ### Adding links -/

/-- A link that is added. -/
structure Addition where
  repository : String
  reference : String
  identifier : String

/-- An addition for a digest, or for a tag of a repository that is not its own identifier. -/
def Addition.IsProper (a : Addition) : Prop :=
  Digest.isDigest a.reference = true ∨
    IsRepository a.repository ∧ IsTag a.reference ∧ IsIdentifier a.identifier ∧
      a.identifier ≠ a.repository

instance (a : Addition) : Decidable a.IsProper := inferInstanceAs (Decidable (_ ∨ _ ∧ _))

/-- The identifiers of tags with one more addition. -/
def Addition.fileIn (links : Table (String × String) String) (a : Addition) :
    Table (String × String) String :=
  if Digest.isDigest a.reference then links
  else links.insert (a.repository, a.reference) a.identifier

/-- The identifier that was added last for each tag. -/
def lastAdded (additions : List Addition) : Table (String × String) String :=
  additions.foldl Addition.fileIn ∅

/-- The cache and the files after some additions, if none of them fails. -/
def Cache.addAll (c : Cache) (t : Tree) : List Addition → Except WriteFailure (Cache × Tree)
  | [] => .ok (c, t)
  | a :: rest =>
    match c.add t a.repository a.reference a.identifier with
    | (.ok (), added, written) => added.addAll written rest
    | (.error failure, _, _) => .error failure

theorem root_add (c : Cache) (t : Tree) (repository reference identifier : String) :
    (c.add t repository reference identifier).2.1.root = c.root := by
  rw [Cache.memory_add]
  rfl

/-- What is filed is filed still after one more addition, and so is what was added. -/
theorem Filed.add (h : Filed root links t) (hroot : c.root = some root) {a : Addition}
    (ha : a.IsProper) {added : Cache}
    (hok : c.add t a.repository a.reference a.identifier = (.ok (), added, u)) :
    Filed root (a.fileIn links) u := by
  rw [Cache.add, hroot] at hok
  dsimp only at hok
  rcases ha with hdigest | ⟨hrepository, htag, hidentifier, hne⟩
  · have hvolatile : Cache.isVolatile a.repository a.reference a.identifier = true := by
      rw [Cache.isVolatile, hdigest]
      rfl
    rw [if_pos hvolatile] at hok
    rw [Addition.fileIn, if_pos hdigest, ← (Prod.mk.inj (Prod.mk.inj hok).2).2]
    exact h
  · have hvolatile : Cache.isVolatile a.repository a.reference a.identifier = false := by
      rw [Cache.isVolatile, htag.isDigest, Bool.false_or, decide_eq_false_iff_not]
      exact hne.symm
    rw [if_neg (by rw [hvolatile]; decide)] at hok
    rw [Addition.fileIn, if_neg (by rw [htag.isDigest]; decide)]
    refine h.persist hrepository htag hidentifier (Prod.ext (Prod.mk.inj hok).1 ?_)
    exact (Prod.mk.inj (Prod.mk.inj hok).2).2

theorem filed_addAll (h : Filed root links t) (hroot : c.root = some root)
    {additions : List Addition} (hproper : ∀ a ∈ additions, a.IsProper) {added : Cache}
    (hok : c.addAll t additions = .ok (added, u)) :
    Filed root (additions.foldl Addition.fileIn links) u := by
  induction additions generalizing c t links with
  | nil =>
    obtain ⟨-, rfl⟩ := Prod.mk.inj (Except.ok.inj hok)
    exact h
  | cons a rest ih =>
    rw [Cache.addAll] at hok
    split at hok
    · next c' written hadd =>
      refine ih (h.add hroot (hproper a List.mem_cons_self) hadd) ?_
        (fun b hb ↦ hproper b (List.mem_cons_of_mem a hb)) hok
      have hkept := root_add c t a.repository a.reference a.identifier
      rw [hadd] at hkept
      rw [hkept, hroot]
    · cases hok

/-! ### What can be read after the restart -/

/-- What can be read from the files of a root to which links were added. -/
structure Restarted (root : String) (additions : List Addition) (t : Tree) : Prop where
  /-- A new cache tells what was added last for a tag, and nothing of other tags. -/
  got : ∀ {repository reference : String}, IsRepository repository → IsTag reference →
    ((Cache.empty (some root)).get t repository reference).1 =
      (lastAdded additions).get? (repository, reference)
  /-- A new cache knows nothing of digests. -/
  digests : ∀ {reference : String} (repository : String), Digest.isDigest reference = true →
    ((Cache.empty (some root)).get t repository reference).1 = none
  /-- A resolver finds what was added last for a tag. -/
  resolved : ∀ {repository reference identifier : String},
    (lastAdded additions).get? (repository, reference) = some identifier →
    ∀ w : World, w.files = t →
      ((Resolver.ofFiles root).ask repository reference).run w = (.done [identifier], w)
  /-- A resolver lists a repository that has a tag. -/
  listed : ∀ {repository reference identifier : String},
    (lastAdded additions).get? (repository, reference) = some identifier →
    ∀ w : World, w.files = t → ∃ found,
      ((Resolver.ofFiles root).ask repository "").run w = (.done found, w)
  /-- A repository without a tag is listed as empty if its directory can be asked for. That nothing
  is in the way of the root is clear once a tag was added. -/
  untagged : ∀ {repository : String}, IsRepository repository →
    (∃ s g i, (lastAdded additions).get? (s, g) = some i) ∨ Listable t root →
    (∀ reference, (lastAdded additions).get? (repository, reference) = none) →
    Files.askedParts (directory root repository).toUTF8 =
      .ok (Files.parts (directory root repository).toUTF8) →
    (∀ part ∈ parts repository, (encoded part).size ≤ Files.maxName) →
    ∀ w : World, w.files = t →
      ((Resolver.ofFiles root).ask repository "").run w = (.done [], w)
  /-- What is listed of a repository is what was added last for its tags, once for each tag. -/
  told : ∀ {repository : String}, IsRepository repository →
    ∀ (w : World) (found : List String), w.files = t →
      (((Resolver.ofFiles root).ask repository "").run w).1 = .done found →
      found.Perm (((lastAdded additions).entries.filter (·.1.1 = repository)).map Prod.snd)

theorem run_ask_ofFiles (root repository reference : String) (w : World) :
    ((Resolver.ofFiles root).ask repository reference).run w =
      (.ofExcept id (Resolver.lookUp w.files root repository reference) :
        Action World ResolveFailure _).run w := rfl

theorem fst_run_ask_ofFiles_eq_done {w : World} {found : List String} :
    (((Resolver.ofFiles root).ask repository reference).run w).1 = .done found ↔
      Resolver.lookUp w.files root repository reference = .ok found := by
  rw [run_ask_ofFiles]
  cases Resolver.lookUp w.files root repository reference <;> simp

theorem fst_run_ask_ofFiles_eq_failed {w : World} {failure : ResolveFailure} :
    (((Resolver.ofFiles root).ask repository reference).run w).1 = .failed failure ↔
      Resolver.lookUp w.files root repository reference = .error failure := by
  rw [run_ask_ofFiles]
  cases Resolver.lookUp w.files root repository reference <;> simp

theorem fst_get_empty (root : Option String) (t : Tree) (repository reference : String) :
    ((Cache.empty root).get t repository reference).1 =
      (Cache.empty root).stored? t repository reference := by
  have hnone : (Cache.empty root).memory.get? (repository, reference) = none := rfl
  rw [Cache.get]
  simp only [hnone]
  cases (Cache.empty root).stored? t repository reference <;> rfl

namespace Filed

/-- A new cache tells what is filed for a tag, and nothing of other tags. -/
theorem fst_get (h : Filed root links t) (hrepository : IsRepository repository)
    (hreference : IsTag reference) :
    ((Cache.empty (some root)).get t repository reference).1 =
      links.get? (repository, reference) := by
  rw [fst_get_empty]
  cases hlink : links.get? (repository, reference) with
  | some identifier => exact h.stored?_of_get? hlink
  | none =>
    refine h.stored?_eq_none fun s g i hi hspot ↦ ?_
    obtain ⟨hs, hg, -⟩ := h.tags hi
    obtain ⟨rfl, rfl⟩ := spot_inj hrepository hs hreference hg hspot
    cases hlink.symm.trans hi

/-- A new cache knows nothing of digests. -/
theorem fst_get_of_isDigest (h : Filed root links t) (repository : String)
    (hdigest : Digest.isDigest reference = true) :
    ((Cache.empty (some root)).get t repository reference).1 = none := by
  rw [fst_get_empty]
  exact h.stored?_eq_none fun s g i hi hspot ↦
    spot_ne_of_isDigest hdigest (h.tags hi).2.1 hspot.symm

variable {w : World}

/-- A resolver finds what is filed for a tag. -/
theorem run_ask (h : Filed root links w.files)
    (hlink : links.get? (repository, reference) = some identifier) :
    ((Resolver.ofFiles root).ask repository reference).run w = (.done [identifier], w) := by
  have hne : reference.isEmpty = false := by
    simpa using (h.tags hlink).2.1.ne_empty
  rw [run_ask_ofFiles, Resolver.lookUp, if_neg (by rw [hne]; decide), h.readIdentifiers hlink]
  rfl

/-- A resolver lists a repository that has a tag. -/
theorem exists_run_ask_listing (h : Filed root links w.files)
    (hlink : links.get? (repository, reference) = some identifier) :
    ∃ found, ((Resolver.ofFiles root).ask repository "").run w = (.done found, w) := by
  obtain ⟨found, hfound, -⟩ := h.lookUp_listing hlink
  refine ⟨found, ?_⟩
  rw [run_ask_ofFiles, hfound]
  rfl

/-- What is listed of a repository is what is filed for its tags, once for each tag. -/
theorem perm_of_run_ask (h : Filed root links w.files) (hrepository : IsRepository repository)
    {found : List String}
    (hfound : (((Resolver.ofFiles root).ask repository "").run w).1 = .done found) :
    found.Perm ((linksOf links repository).map Prod.snd) := by
  rw [run_ask_ofFiles] at hfound
  refine h.perm_of_lookUp hrepository ?_
  cases hlookUp : Resolver.lookUp w.files root repository "" with
  | ok listed =>
    rw [hlookUp] at hfound
    exact congrArg Except.ok (Outcome.done.inj hfound)
  | error failure =>
    rw [hlookUp] at hfound
    cases hfound

/-- A repository without a tag is listed as empty. -/
theorem run_ask_untagged (h : Filed root links w.files) (hrepository : IsRepository repository)
    (hroot : (∃ s g i, links.get? (s, g) = some i) ∨ Listable w.files root)
    (hnone : ∀ reference, links.get? (repository, reference) = none) {asked : List ByteArray}
    (hasked : Files.askedParts (directory root repository).toUTF8 = .ok asked)
    (hsize : ∀ part ∈ parts repository, (encoded part).size ≤ Files.maxName) :
    ((Resolver.ofFiles root).ask repository "").run w = (.done [], w) := by
  obtain ⟨found, hfound⟩ := h.lookUp_of_asked hroot hrepository hasked hsize
  have hlinks : linksOf links repository = [] := by
    refine List.eq_nil_iff_forall_not_mem.2 fun e he ↦ ?_
    cases (hnone e.1.2).symm.trans (mem_linksOf_iff.1 he).2
  have hperm := h.perm_of_lookUp hrepository hfound
  rw [hlinks] at hperm
  rw [run_ask_ofFiles, hfound, hperm.eq_nil]
  rfl

end Filed

theorem restarted (hroot : c.root = some root) (hvacant : Vacant root t)
    {additions : List Addition} (hproper : ∀ a ∈ additions, a.IsProper) {added : Cache}
    (hok : c.addAll t additions = .ok (added, u)) : Restarted root additions u := by
  have hfiled : Filed root (lastAdded additions) u :=
    filed_addAll hvacant.filed hroot hproper hok
  constructor
  · intro repository reference hrepository hreference
    exact hfiled.fst_get hrepository hreference
  · intro reference repository hdigest
    exact hfiled.fst_get_of_isDigest repository hdigest
  · rintro repository reference identifier hlink w rfl
    exact hfiled.run_ask hlink
  · rintro repository reference identifier hlink w rfl
    exact hfiled.exists_run_ask_listing hlink
  · rintro repository hrepository hreach hnone hasked hsize w rfl
    exact hfiled.run_ask_untagged hrepository hreach hnone hasked hsize
  · rintro repository hrepository w found rfl hfound
    exact hfiled.perm_of_run_ask hrepository hfound

/-- Two nested repositories, a tag that is added twice, and a digest. -/
theorem restarted_nested :
    let additions : List Addition := [⟨"org", "web", "bafyone"⟩, ⟨"org/web", "v1", "bafytwo"⟩,
      ⟨"org", "sha256:ab", "bafydigest"⟩, ⟨"org", "web", "bafythree"⟩]
    ∃ (added : Cache) (files : Tree),
      (Cache.empty (some "links")).addAll ∅ additions = .ok (added, files) ∧
      Restarted "links" additions files ∧
      ((Cache.empty (some "links")).get files "org" "web").1 = some "bafythree" := by
  intro additions
  have hok : ((Cache.empty (some "links")).addAll ∅ additions).toOption.isSome = true := by
    simp only [additions]
    decide +kernel
  have hproper : ∀ a ∈ additions, a.IsProper := by decide
  cases hadded : (Cache.empty (some "links")).addAll ∅ additions with
  | error failure =>
    rw [hadded] at hok
    cases hok
  | ok result =>
    obtain ⟨added, files⟩ := result
    have hrestarted := restarted rfl (vacant_empty "links") hproper hadded
    refine ⟨added, files, rfl, hrestarted, ?_⟩
    rw [hrestarted.got (by decide) (by decide)]
    decide

end ImageRegistry.Link
