import ImageRegistry.Proofs.Files.Growth
import Mathlib.Data.List.Nodup

/-!
# What stands in a directory

To list a directory is to ask what stands one name further (`mem_children_iff`), and no name comes
twice (`nodup_children`).
-/

namespace ImageRegistry.Files.Tree

variable {t : Tree} {path name : ByteArray} {place : Place} {node : Node}
  {children : List (ByteArray × Node)}

/-- What is picked out of a list comes once, if it tells by what it was found and that comes
once. -/
theorem nodup_filterMap {α β κ : Type} {l : List α} {key : α → κ} {f : α → Option β}
    (hkeys : (l.map key).Nodup) (h : ∀ a a' b, f a = some b → f a' = some b → key a = key a') :
    (l.filterMap f).Nodup := by
  rw [List.Nodup, List.pairwise_map] at hkeys
  refine List.Pairwise.filterMap f (fun a a' hne b hb b' hb' hsame ↦ hne ?_) hkeys
  rw [← hsame] at hb'
  exact h a a' b hb hb'

theorem node?_concat (t : Tree) (place : Place) (name : ByteArray) :
    t.node? (place ++ [name]) = t.nodes.get? (place ++ [name]) := by
  cases place <;> rfl

/-- Entries are picked out by the directory that they stand in. -/
theorem entries_filterMap (t : Tree) {pick : Place × Node → Option (ByteArray × Node)}
    (hpick : ∀ entry name node, pick entry = some (name, node) ↔ entry = (place ++ [name], node)) :
    ((t.nodes.entries.filterMap pick).map Prod.fst).Nodup ∧
      ∀ name node, (name, node) ∈ t.nodes.entries.filterMap pick ↔
        t.node? (place ++ [name]) = some node := by
  constructor
  · rw [List.map_filterMap]
    refine nodup_filterMap t.nodes.nodup fun entry other name hentry hother ↦ ?_
    obtain ⟨⟨first, node⟩, hfirst, hname⟩ := Option.map_eq_some_iff.1 hentry
    obtain ⟨⟨second, node'⟩, hsecond, hsame⟩ := Option.map_eq_some_iff.1 hother
    rw [(hpick _ _ _).1 hfirst, (hpick _ _ _).1 hsecond]
    show place ++ [first] = place ++ [second]
    rw [show first = second from hname.trans hsame.symm]
  · intro name node
    rw [node?_concat, t.nodes.get?_eq_some_iff, List.mem_filterMap]
    constructor
    · rintro ⟨entry, hentry, hname⟩
      rwa [← (hpick _ _ _).1 hname]
    · exact fun hentry ↦ ⟨_, hentry, (hpick _ _ _).2 rfl⟩

/-- What is listed in a directory is what stands one name further, each name once. -/
theorem children_eq_ok (h : t.children path = .ok children) :
    ∃ place, t.locate true path = .ok place ∧ t.node? place = some .directory ∧
      (children.map Prod.fst).Nodup ∧
      ∀ name node, (name, node) ∈ children ↔ t.node? (place ++ [name]) = some node := by
  obtain ⟨place, hlocate, hlisted⟩ := bind_eq_ok_iff.1 h
  refine ⟨place, hlocate, ?_⟩
  split at hlisted
  · next hdirectory =>
    refine ⟨hdirectory, ?_⟩
    rw [← Except.ok.inj hlisted]
    refine entries_filterMap t fun entry name node ↦ ?_
    obtain ⟨place', node'⟩ := entry
    constructor
    · intro hentry
      split at hentry
      · next last hlast =>
        obtain ⟨front, rfl⟩ := List.getLast?_eq_some_iff.1 hlast
        rw [List.dropLast_concat] at hentry
        split at hentry
        · next hplace =>
          obtain ⟨rfl, rfl⟩ := Prod.mk.inj (Option.some.inj hentry)
          rw [hplace]
        · cases hentry
      · cases hentry
    · intro hentry
      obtain ⟨rfl, rfl⟩ := Prod.mk.inj hentry
      simp
  · cases hlisted
  · cases hlisted

/-- A directory can be listed. -/
theorem exists_children (hlocate : t.locate true path = .ok place)
    (hdirectory : t.node? place = some .directory) :
    ∃ children, t.children path = .ok children := by
  rw [children, hlocate]
  simp only [bind, Except.bind, hdirectory]
  exact ⟨_, rfl⟩

theorem children_of_missing (hlocate : t.locate true path = .ok place)
    (hnone : t.node? place = none) : t.children path = .error .notFound := by
  rw [children, hlocate]
  simp only [bind, Except.bind, hnone]

theorem children_of_error {failure : Failure} (h : t.locate true path = .error failure) :
    t.children path = .error failure := by
  rw [children, h]
  rfl

theorem children_of_unlistable {l : List ByteArray} {failure : Failure}
    (hlocate : t.locate true path = t.walk true maxLinks [] l)
    (h : Unlistable t maxLinks [] l failure) : t.children path = .error failure := by
  cases h with
  | fails hfails => exact children_of_error (hlocate.trans hfails)
  | missing hq hnone => exact children_of_missing (hlocate.trans hq) hnone
  | file hq hfile =>
    rw [children, hlocate, hq]
    simp only [bind, Except.bind, hfile]

end ImageRegistry.Files.Tree
