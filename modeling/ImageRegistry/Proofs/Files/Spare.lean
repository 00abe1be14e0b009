import ImageRegistry.Proofs.Files.Walk
import ImageRegistry.Proofs.Step

/-!
# Writing files without touching others

Link files of one directory are told apart by their names alone, so what has to be known of a change
of the tree is which names it leaves alone. `Spares name t u` says that `u` comes from `t` by making
directories where nothing was and by writing files that are not called `name`. Everything that has
that name is then as it was, wherever it is (`Spares.file_iff`), and a path that led to a file still
leads there (`Spares.read_of_read`).

A path ends where its last part says (`getLast?_of_walk`), unless a symbolic link stands there: it
could lead to a file of any name. So a file is only known to be written under its own name if
nothing of that name is a symbolic link (`Unlinked`).
-/

namespace ImageRegistry.Files

/-- What is asked for is the path, part by part. -/
theorem askedParts_eq_ok {path : ByteArray} {asked : List ByteArray}
    (h : askedParts path = .ok asked) : asked = parts path := by
  rw [askedParts] at h
  split at h
  · cases h
  · split at h
    · cases h
    · split at h
      · cases h
      · exact (Except.ok.inj h).symm

namespace Tree

variable {t u v : Tree} {name other : ByteArray} {place q : Place} {node : Node}

/-! ### Trees that differ in some names -/

theorem node?_put (hplace : place ≠ []) (p : Place) :
    (t.put place node).node? p = if place = p then some node else t.node? p := by
  cases p with
  | nil => rw [if_neg hplace]; rfl
  | cons first rest => exact Table.get?_insert _ _ _ _

/-- Nothing with this name is a symbolic link. -/
def Unlinked (name : ByteArray) (t : Tree) : Prop :=
  ∀ place target, place.getLast? = some name → t.node? place ≠ some (.link target)

/-- What is there stays, but for the contents of files that are not called `name`, and only
directories and files that are not called `name` come in. -/
structure Spares (name : ByteArray) (t u : Tree) : Prop where
  kept : ∀ {place node}, t.node? place = some node → u.node? place = some node ∨
    place.getLast? ≠ some name ∧ ∃ old new, node = .file old ∧ u.node? place = some (.file new)
  made : ∀ {place node}, u.node? place = some node → t.node? place = some node ∨
    node = .directory ∨ place.getLast? ≠ some name ∧ ∃ content, node = .file content

namespace Spares

theorem refl (name : ByteArray) (t : Tree) : Spares name t t := ⟨Or.inl, Or.inl⟩

theorem trans (htu : Spares name t u) (huv : Spares name u v) : Spares name t v where
  kept h := by
    rcases htu.kept h with hu | ⟨hname, old, new, rfl, hu⟩
    · exact huv.kept hu
    · rcases huv.kept hu with hv | ⟨-, _, newer, -, hv⟩
      · exact Or.inr ⟨hname, old, new, rfl, hv⟩
      · exact Or.inr ⟨hname, old, newer, rfl, hv⟩
  made h := by
    rcases huv.made h with hu | hnew
    · exact htu.made hu
    · exact Or.inr hnew

/-- A directory is made where nothing was. -/
theorem put_directory (name : ByteArray) (h : t.node? place = none) :
    Spares name t (t.put place .directory) := by
  have hplace : place ≠ [] := by rintro rfl; cases h
  constructor
  · intro p node hp
    rw [node?_put hplace]
    split
    · next heq => rw [← heq, h] at hp; cases hp
    · exact Or.inl hp
  · intro p node hp
    rw [node?_put hplace] at hp
    split at hp
    · cases hp; exact Or.inr (Or.inl rfl)
    · exact Or.inl hp

/-- A file is written where neither a directory nor a symbolic link was. -/
theorem put_file {content : ByteArray} (hname : place.getLast? ≠ some name)
    (hdirectory : t.node? place ≠ some .directory)
    (hlink : ∀ target, t.node? place ≠ some (.link target)) :
    Spares name t (t.put place (.file content)) := by
  have hplace : place ≠ [] := by rintro rfl; exact hdirectory rfl
  constructor
  · intro p node hp
    rw [node?_put hplace]
    split
    · next heq =>
      subst heq
      cases node with
      | directory => exact absurd hp hdirectory
      | link target => exact absurd hp (hlink target)
      | file old => exact Or.inr ⟨hname, old, content, rfl, rfl⟩
    · exact Or.inl hp
  · intro p node hp
    rw [node?_put hplace] at hp
    split at hp
    · next heq =>
      subst heq
      cases hp
      exact Or.inr (Or.inr ⟨hname, content, rfl⟩)
    · exact Or.inl hp

/-- What is no file is the same. -/
theorem same (h : Spares name t u) (ht : t.node? place = some node)
    (hnode : ∀ content, node ≠ .file content) : u.node? place = some node := by
  rcases h.kept ht with hu | ⟨-, old, _, hfile, -⟩
  · exact hu
  · exact absurd hfile (hnode old)

/-- The files with the name that is spared are those that were there, with what was in them. -/
theorem file_iff (h : Spares name t u) (hplace : place.getLast? = some name) (content : ByteArray) :
    u.node? place = some (.file content) ↔ t.node? place = some (.file content) := by
  constructor
  · intro hu
    rcases h.made hu with ht | hdirectory | ⟨hname, -⟩
    · exact ht
    · cases hdirectory
    · exact absurd hplace hname
  · intro ht
    rcases h.kept ht with hu | ⟨hname, -⟩
    · exact hu
    · exact absurd hplace hname

/-- No symbolic link comes in. -/
theorem unlinked (h : Spares name t u) (hunlinked : Unlinked other t) : Unlinked other u := by
  intro place target hplace hu
  rcases h.made hu with ht | hdirectory | ⟨-, content, hfile⟩
  · exact hunlinked place target hplace ht
  · cases hdirectory
  · cases hfile

end Spares

/-! ### Where a path leads -/

theorem getLast?_cons_eq_some {α : Type} {first last : α} {rest : List α}
    (h : (first :: rest).getLast? = some last) :
    rest = [] ∧ first = last ∨ rest ≠ [] ∧ rest.getLast? = some last := by
  cases rest with
  | nil => exact Or.inl ⟨rfl, by simpa using h⟩
  | cons second rest => exact Or.inr ⟨by simp, by rwa [List.getLast?_cons_cons] at h⟩

/-- A path leads to a place with the name at its end, unless that is a symbolic link. -/
theorem getLast?_of_walk {follow : Bool} {fuel : Nat} {path : List ByteArray}
    (hname : IsName name) (hunlinked : Unlinked name t) (hpath : path.getLast? = some name)
    (h : t.walk follow fuel place path = .ok q) :
    q.getLast? = some name := by
  induction fuel, place, path using walk_induction t follow with
  | arrived => cases hpath
  | stays fuel place part rest hstays ih =>
    rw [walk_stays hstays] at h
    obtain ⟨-, rfl⟩ | ⟨-, hrest⟩ := getLast?_cons_eq_some hpath
    · rw [hname.1] at hstays
      cases hstays
    · exact ih hrest h
  | goesUp fuel place rest ih =>
    rw [walk_up] at h
    obtain ⟨-, hup⟩ | ⟨-, hrest⟩ := getLast?_cons_eq_some hpath
    · exact absurd hup.symm hname.2
    · exact ih hrest h
  | tooLong fuel place first rest hfirst hsize =>
    rw [walk_tooLong hfirst hsize] at h
    cases h
  | missing fuel place first rest hfirst hsize hnode =>
    rw [walk_missing hfirst hsize hnode] at h
    -- The path ends here, and what it ends with is the name.
    obtain ⟨rfl, rfl⟩ := ends_eq_ok_iff.1 h
    rw [List.getLast?_concat]
    exact hpath
  | directory fuel place first rest hfirst hsize hnode ih =>
    rw [walk_directory hfirst hsize hnode] at h
    obtain ⟨rfl, rfl⟩ | ⟨-, hrest⟩ := getLast?_cons_eq_some hpath
    · rw [walk_nil] at h
      rw [← Except.ok.inj h]
      exact List.getLast?_concat
    · exact ih hrest h
  | file fuel place first rest content hfirst hsize hnode =>
    rw [walk_file hfirst hsize hnode] at h
    obtain ⟨rfl, rfl⟩ := ends_eq_ok_iff.1 h
    rw [List.getLast?_concat]
    exact hpath
  | kept fuel place first rest target hfirst hsize hnode hends =>
    rw [walk_kept hfirst hsize hnode hends] at h
    obtain ⟨-, rfl⟩ | ⟨hrest, -⟩ := getLast?_cons_eq_some hpath
    · rw [← Except.ok.inj h]
      exact List.getLast?_concat
    · rw [Bool.and_eq_true] at hends
      exact absurd (List.isEmpty_iff.1 hends.1) hrest
  | loop place first rest target hfirst hsize hnode hfollows =>
    rw [walk_loop hfirst hsize hnode hfollows] at h
    cases h
  | link fuel place first rest target hfirst hsize hnode hfollows ih =>
    rw [walk_link hfirst hsize hnode hfollows] at h
    obtain ⟨-, rfl⟩ | ⟨-, hlast⟩ := getLast?_cons_eq_some hpath
    · exact absurd hnode (hunlinked _ target List.getLast?_concat)
    · refine ih ?_ h
      rw [List.getLast?_append, hlast]
      rfl

/-- A path that leads to something still leads there. -/
theorem walk_of_spares {follow : Bool} {fuel : Nat} {path : List ByteArray} (h : Spares name t u)
    (hwalk : t.walk follow fuel place path = .ok q) (hnode : t.node? q = some node) :
    u.walk follow fuel place path = .ok q := by
  induction fuel, place, path using walk_induction t follow with
  | arrived =>
    rw [walk_nil] at hwalk ⊢
    exact hwalk
  | stays fuel place part rest hstays ih =>
    rw [walk_stays hstays] at hwalk ⊢
    exact ih hwalk
  | goesUp fuel place rest ih =>
    rw [walk_up] at hwalk ⊢
    exact ih hwalk
  | tooLong fuel place first rest hfirst hsize =>
    rw [walk_tooLong hfirst hsize] at hwalk
    cases hwalk
  | missing fuel place first rest hfirst hsize hnone =>
    rw [walk_missing hfirst hsize hnone] at hwalk
    rw [← (ends_eq_ok_iff.1 hwalk).2, hnone] at hnode
    cases hnode
  | directory fuel place first rest hfirst hsize hdirectory ih =>
    rw [walk_directory hfirst hsize hdirectory] at hwalk
    rw [walk_directory hfirst hsize (h.same hdirectory fun _ ↦ by simp)]
    exact ih hwalk
  | file fuel place first rest content hfirst hsize hfile =>
    have hthere : ∃ new, u.node? (place ++ [first]) = some (.file new) := by
      rcases h.kept hfile with hthere | ⟨-, _, new, -, hthere⟩
      · exact ⟨content, hthere⟩
      · exact ⟨new, hthere⟩
    obtain ⟨new, hthere⟩ := hthere
    rw [walk_file hfirst hsize hfile] at hwalk
    rw [walk_file hfirst hsize hthere]
    exact hwalk
  | kept fuel place first rest target hfirst hsize hlink hends =>
    rw [walk_kept hfirst hsize hlink hends] at hwalk
    rw [walk_kept hfirst hsize (h.same hlink fun _ ↦ by simp) hends]
    exact hwalk
  | loop place first rest target hfirst hsize hlink hfollows =>
    rw [walk_loop hfirst hsize hlink hfollows] at hwalk
    cases hwalk
  | link fuel place first rest target hfirst hsize hlink hfollows ih =>
    rw [walk_link hfirst hsize hlink hfollows] at hwalk
    rw [walk_link hfirst hsize (h.same hlink fun _ ↦ by simp) hfollows]
    exact ih hwalk

theorem locate_eq_ok_iff {follow : Bool} {path : ByteArray} :
    t.locate follow path = .ok place ↔ askedParts path = .ok (parts path) ∧
      t.walk follow maxLinks [] (parts path) = .ok place := by
  rw [locate, bind_eq_ok_iff]
  constructor
  · rintro ⟨asked, hasked, hwalk⟩
    obtain rfl := askedParts_eq_ok hasked
    exact ⟨hasked, hwalk⟩
  · rintro ⟨hasked, hwalk⟩
    exact ⟨parts path, hasked, hwalk⟩

/-- The place that a path leads to has the name at its end that the path has. -/
theorem getLast?_of_locate {follow : Bool} {path : ByteArray} (hname : IsName name)
    (hunlinked : Unlinked name t) (hpath : (parts path).getLast? = some name)
    (h : t.locate follow path = .ok place) : place.getLast? = some name :=
  getLast?_of_walk hname hunlinked hpath (locate_eq_ok_iff.1 h).2

/-! ### Reading -/

theorem read_eq_ok_iff {path content : ByteArray} :
    t.read path = .ok content ↔ ∃ place, t.locate true path = .ok place ∧
      t.node? place = some (.file content) := by
  rw [read]
  cases t.locate true path with
  | error failure => simp [bind, Except.bind]
  | ok place =>
    simp only [bind, Except.bind, Except.ok.injEq, exists_eq_left']
    split <;> simp_all

/-- A path that led to a file leads there still, and to what was in it if it has the name that is
spared. -/
theorem Spares.read_of_read {path content : ByteArray} (h : Spares name t u)
    (hpath : (parts path).getLast? = some name) (hname : IsName name)
    (hunlinked : Unlinked name t) (hread : t.read path = .ok content) :
    u.read path = .ok content := by
  obtain ⟨place, hlocate, hfile⟩ := read_eq_ok_iff.1 hread
  obtain ⟨hasked, hwalk⟩ := locate_eq_ok_iff.1 hlocate
  have hplace : place.getLast? = some name := getLast?_of_locate hname hunlinked hpath hlocate
  exact read_eq_ok_iff.2 ⟨place, locate_eq_ok_iff.2 ⟨hasked, walk_of_spares h hwalk hfile⟩,
    (h.file_iff hplace content).2 hfile⟩

/-! ### Making and writing -/

/-- Something new comes where nothing was. -/
theorem make_eq_ok {path : ByteArray} (h : t.make path node = .ok u) :
    ∃ place, t.node? place = none ∧ u = t.put place node := by
  obtain ⟨place, -, hput⟩ := bind_eq_ok_iff.1 h
  split at hput
  · cases hput
  · next hnone => exact ⟨place, hnone, (Except.ok.inj hput).symm⟩

theorem Spares.make_directory {path : ByteArray} (name : ByteArray)
    (h : t.make path .directory = .ok u) : Spares name t u := by
  obtain ⟨place, hnone, rfl⟩ := make_eq_ok h
  exact .put_directory name hnone

/-- Directories are made on the way to the last one, or not, and nothing else changes. -/
theorem Spares.makeDirectories (name : ByteArray) (t : Tree) (path : List ByteArray) :
    Spares name t (t.makeDirectories path).2 := by
  induction path generalizing t with
  | nil => exact .refl name t
  | cons last above ih =>
    rw [Tree.makeDirectories]
    split
    · exact .refl name t
    · split
      · next made hmade => exact .make_directory name hmade
      · split
        · next failure made habove =>
          have hspares := ih t
          rwa [habove] at hspares
        · next made habove =>
          have hspares := ih t
          rw [habove] at hspares
          split
          · next full hfull => exact hspares.trans (.make_directory name hfull)
          · exact hspares
      · exact .refl name t

theorem Spares.ensureParent (name : ByteArray) (t : Tree) (path : ByteArray) :
    Spares name t (t.ensureParent path).2 :=
  .makeDirectories name t (namedParts path).tail

/-- A file is written under the name at the end of its path, and under no other name. -/
theorem Spares.write {path content written : ByteArray} (h : t.write path content = .ok u)
    (hpath : (parts path).getLast? = some written) (hwritten : IsName written)
    (hunlinked : Unlinked written t) (hne : written ≠ name) : Spares name t u := by
  obtain ⟨place, hlocate, hput⟩ := bind_eq_ok_iff.1 h
  have hplace : place.getLast? = some written := getLast?_of_locate hwritten hunlinked hpath hlocate
  split at hput
  · cases hput
  · next hdirectory =>
    rw [← Except.ok.inj hput]
    refine .put_file ?_ hdirectory fun target ↦ hunlinked place target hplace
    rw [hplace]
    exact fun hsame ↦ hne (Option.some.inj hsame)

end Tree

end ImageRegistry.Files
