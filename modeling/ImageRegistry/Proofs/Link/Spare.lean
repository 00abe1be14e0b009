import ImageRegistry.Link.Locate
import ImageRegistry.Proofs.Action
import ImageRegistry.Proofs.Link.Path
import ImageRegistry.Proofs.Resolver.Reads

/-!
# Links that are left alone

A look-up adds the link that it finds, and a pull adds links to all that a manifest refers to. What
becomes of the link of another reference is the question of `Spared`: its entry in memory is the
same, and of the files only those of other names were written. Adding a link spares the link of each
reference that it is `Apart` from, in memory and on disk. The two are not the same: references that
differ in memory can share a link file, when one is written with a slash and the other with its
escape, and a digest has an entry in memory and no file at all.

The chain of resolvers must not write files of its own; none of the resolvers does.
-/

namespace ImageRegistry

open ImageRegistry.Action

namespace Link

/-! ### Links that do not meet -/

/-- A link for `reference` can be added without any harm to the link of `other`: they are not the
same, and do not share a file. -/
def Apart (other reference : String) : Prop :=
  reference ≠ other ∧ (Digest.isDigest reference = true ∨ fileName reference ≠ fileName other)

/-- A digest has no link file, and is no tag. -/
theorem apart_of_isDigest {other reference : String} (hother : Digest.isDigest other = false)
    (h : Digest.isDigest reference = true) : Apart other reference := by
  refine ⟨?_, Or.inl h⟩
  rintro rfl
  rw [h] at hother
  cases hother

/-- Without a slash no reference is escaped, so two of them share no file. -/
theorem apart_of_ne {other reference : String} (h : reference ≠ other)
    (hother : '/' ∉ other.toList) (hreference : '/' ∉ reference.toList) :
    Apart other reference := by
  refine ⟨h, Or.inr fun hsame ↦ h ?_⟩
  rw [fileName, fileName, escaped_of_not_mem hother, escaped_of_not_mem hreference,
    List.cons.injEq] at hsame
  exact String.toList_inj.1 hsame.2

/-- No link file is a symbolic link. -/
def Plain (files : Files.Tree) : Prop := ∀ reference, files.Unlinked (nameOf reference)

/-- The link of a reference is spared: its entry in memory is the same, and no file with its name
was written. -/
structure Spared (repository other : String) (s t : Setting) : Prop where
  root : t.cache.root = s.cache.root
  memory : t.cache.memory.get? (repository, other) = s.cache.memory.get? (repository, other)
  files : Plain s.world.files → Files.Tree.Spares (nameOf other) s.world.files t.world.files

instance (repository other : String) : IsPreorder Setting (Spared repository other) where
  refl s := ⟨rfl, rfl, fun _ ↦ .refl _ _⟩
  trans s t u hst htu := by
    refine ⟨htu.root.trans hst.root, htu.memory.trans hst.memory, fun hplain ↦ ?_⟩
    have hspares := hst.files hplain
    exact hspares.trans (htu.files fun reference ↦ hspares.unlinked (hplain reference))

variable {repository other reference : String}

theorem spared_of_eq {s t : Setting} (hcache : t.cache = s.cache)
    (hfiles : t.world.files = s.world.files) : Spared repository other s t :=
  ⟨by rw [hcache], by rw [hcache], fun _ ↦ by rw [hfiles]; exact .refl _ _⟩

/-! ### Adding links -/

/-- A link is written to the file of its reference, and to no other file. -/
theorem spares_persist {files : Files.Tree} (hplain : Plain files)
    (h : fileName reference ≠ fileName other) (root identifier : String) :
    Files.Tree.Spares (nameOf other) files
      (Cache.persist files (path root repository reference) identifier).2 := by
  have hparent := Files.Tree.Spares.ensureParent (nameOf other) files
    (path root repository reference).toUTF8
  rw [Cache.persist]
  split
  · next failure made hmade => rwa [hmade] at hparent
  · next made hmade =>
    rw [hmade] at hparent
    split
    · next written hwritten =>
      refine hparent.trans (.write hwritten (getLast?_parts_path root repository reference)
        (isName_nameOf reference) (hparent.unlinked (hplain reference)) ?_)
      exact fun hsame ↦ h (nameOf_inj.1 hsame)
    · exact hparent

/-- A digest has no file to write to. -/
theorem spares_add {files : Files.Tree} (hplain : Plain files) (h : Apart other reference)
    (c : Cache) (repository identifier : String) :
    Files.Tree.Spares (nameOf other) files (c.add files repository reference identifier).2.2 := by
  rw [Cache.add]
  cases c.root with
  | none => exact .refl _ _
  | some root =>
    dsimp only
    split
    · exact .refl _ _
    · next hvolatile =>
      rw [Cache.isVolatile, Bool.or_eq_true, not_or] at hvolatile
      dsimp only
      exact spares_persist hplain (h.2.resolve_left hvolatile.1) root identifier

theorem spared_remember (h : reference ≠ other) (s : Setting) (identifier : String) :
    Spared repository other s
      { s with cache := s.cache.remember repository reference identifier } where
  root := rfl
  memory := Table.get?_insert_of_ne _ _ fun hsame ↦ h (Prod.mk.inj hsame).2
  files _ := .refl _ _

theorem moves_add {ε : Type} (h : Apart other reference) (identifier : String) :
    Moves (Spared repository other)
      (Setting.add repository reference identifier : Action Setting ε _) := by
  intro s
  have hremembered : Spared repository other s _ := spared_remember h.1 s identifier
  have hadd := s.cache.memory_add s.world.files repository reference identifier
  exact
    { root := by rw [← hremembered.root, ← hadd]; rfl
      memory := by rw [← hremembered.memory, ← hadd]; rfl
      files := fun hplain ↦ spares_add hplain h s.cache repository identifier }

theorem moves_lookUp {ε : Type} (h : reference ≠ other) :
    Moves (Spared repository other)
      (Setting.lookUp repository reference : Action Setting ε _) := by
  intro s
  show Spared repository other s
    { s with cache := (s.cache.get s.world.files repository reference).2 }
  rw [Cache.get]
  split
  · exact refl s
  · split
    · exact spared_remember h s _
    · exact refl s

/-- Locating a reference spares the link of another one. -/
theorem moves_locate {chain : List Resolver} (hchain : ∀ r ∈ chain, r.Reads)
    (h : Apart other reference) :
    Moves (Spared repository other) (Setting.locate chain repository reference) := by
  have hresolve : Moves (Spared repository other)
      (Setting.onWorld (Resolver.resolve chain repository reference)) := fun s ↦
    spared_of_eq rfl (Resolver.keeps_resolve hchain repository reference s.world)
  exact (composes_moves (Spared repository other)).locateLink (moves_lookUp h.1) hresolve
    fun identifier ↦ moves_add h identifier

end Link

end ImageRegistry
