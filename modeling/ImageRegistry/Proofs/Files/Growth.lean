import ImageRegistry.Proofs.Files.Spare

/-!
# Trees that grow

Links are written by making directories where nothing was (`Furnishes`) and by putting a file where
neither a directory nor a symbolic link was. A tree so changed has grown (`Grows`).

`Leads` says where a path leads, step by step, and is what a walk that comes to an end has done
(`leads_of_walk`, `walk_of_leads`). A path that led somewhere leads there still when the tree has
grown (`Leads.grows`), also if nothing stood there. A path goes on from where its front leads, or
nothing can come behind the front (`behind`). Where no symbolic link is in the way, names lead down
to the place that they name (`Leads.of_names`).
-/

namespace ImageRegistry.Files.Tree

variable {t u v : Tree} {place q : Place} {node : Node} {name : ByteArray}

/-! ### More directories, more files -/

/-- Nothing changes but that directories come in where nothing was. -/
structure Furnishes (t u : Tree) : Prop where
  kept : ∀ {place node}, t.node? place = some node → u.node? place = some node
  made : ∀ {place node}, u.node? place = some node →
    t.node? place = some node ∨ node = .directory

/-- Directories and symbolic links stay, files stay files, and no symbolic link comes in. -/
structure Grows (t u : Tree) : Prop where
  directory : ∀ {place}, t.node? place = some .directory → u.node? place = some .directory
  link : ∀ {place target}, t.node? place = some (.link target) →
    u.node? place = some (.link target)
  file : ∀ {place content}, t.node? place = some (.file content) →
    ∃ new, u.node? place = some (.file new)
  unlinked : ∀ {place target}, t.node? place = none → u.node? place ≠ some (.link target)

theorem Furnishes.refl (t : Tree) : Furnishes t t := ⟨id, Or.inl⟩

theorem Furnishes.trans (htu : Furnishes t u) (huv : Furnishes u v) : Furnishes t v where
  kept h := huv.kept (htu.kept h)
  made h := by
    rcases huv.made h with hu | hdirectory
    · exact htu.made hu
    · exact Or.inr hdirectory

theorem Furnishes.grows (h : Furnishes t u) : Grows t u where
  directory := h.kept
  link := h.kept
  file hfile := ⟨_, h.kept hfile⟩
  unlinked hnone hlink := by
    rcases h.made hlink with ht | hdirectory
    · cases hnone.symm.trans ht
    · cases hdirectory

/-- Where every name is spared, directories are all that came in. -/
theorem furnishes_of_spares (h : ∀ name, Spares name t u) : Furnishes t u := by
  -- The top has no name; it is a directory of every tree.
  have htop : t.node? [] = u.node? [] := rfl
  have hname (place : Place) (hplace : place ≠ []) : ∃ name, place.getLast? = some name :=
    ⟨place.getLast hplace, List.getLast?_eq_some_getLast hplace⟩
  constructor
  · intro place node ht
    by_cases hplace : place = []
    · rwa [hplace, ← htop, ← hplace]
    · obtain ⟨name, hlast⟩ := hname place hplace
      rcases (h name).kept ht with hu | ⟨hne, -⟩
      · exact hu
      · exact absurd hlast hne
  · intro place node hu
    by_cases hplace : place = []
    · rw [hplace, ← htop, ← hplace] at hu
      exact Or.inl hu
    · obtain ⟨name, hlast⟩ := hname place hplace
      rcases (h name).made hu with ht | hdirectory | ⟨hne, -⟩
      · exact Or.inl ht
      · exact Or.inr hdirectory
      · exact absurd hlast hne

theorem furnishes_ensureParent (t : Tree) (path : ByteArray) :
    Furnishes t (t.ensureParent path).2 :=
  furnishes_of_spares fun name ↦ Spares.ensureParent name t path

/-- A file is put where neither a directory nor a symbolic link was. -/
theorem grows_put {content : ByteArray} (hdirectory : t.node? place ≠ some .directory)
    (hlink : ∀ target, t.node? place ≠ some (.link target)) :
    Grows t (t.put place (.file content)) := by
  have hplace : place ≠ [] := by rintro rfl; exact hdirectory rfl
  have hnode (p : Place) : (t.put place (.file content)).node? p =
      if place = p then some (.file content) else t.node? p := node?_put hplace p
  constructor
  · intro p hp
    rw [hnode, if_neg (fun hsame ↦ hdirectory (by rw [hsame, hp])), hp]
  · intro p target hp
    rw [hnode, if_neg (fun hsame ↦ hlink target (by rw [hsame, hp])), hp]
  · intro p old hp
    rw [hnode]
    split
    · exact ⟨content, rfl⟩
    · exact ⟨old, hp⟩
  · intro p target hp
    rw [hnode, hp]
    split <;> simp

/-! ### Where paths lead -/

/-- A directory stands at a place, and at every place on the way to it. -/
def Standing (t : Tree) (place : Place) : Prop :=
  ∀ above, above <+: place → t.node? above = some .directory

namespace Standing

theorem nil (t : Tree) : Standing t [] := by
  intro above habove
  rw [List.prefix_nil.1 habove]
  rfl

theorem directory (h : Standing t place) : t.node? place = some .directory :=
  h place (List.prefix_refl place)

theorem dropLast (h : Standing t place) : Standing t place.dropLast :=
  fun above habove ↦ h above (habove.trans (List.dropLast_prefix place))

theorem concat (h : Standing t place) (hnode : t.node? (place ++ [name]) = some .directory) :
    Standing t (place ++ [name]) := by
  intro above habove
  rcases List.prefix_concat_iff.1 habove with rfl | habove
  · exact hnode
  · exact h above habove

theorem origin (h : Standing t place) (target : ByteArray) :
    Standing t (Tree.origin place target) := by
  rw [Tree.origin]
  split
  · exact nil t
  · exact h

end Standing

/-- Where the parts of a path lead from a place, through so many symbolic links at most, the one at
the end included. -/
inductive Leads (t : Tree) : Nat → Place → List ByteArray → Place → Prop where
  | arrived (fuel : Nat) (place : Place) : Leads t fuel place [] place
  | stays {fuel place part rest q} (hstays : staysHere part = true)
      (hmore : Leads t fuel place rest q) : Leads t fuel place (part :: rest) q
  | goesUp {fuel place rest q} (hmore : Leads t fuel place.dropLast rest q) :
      Leads t fuel place (up :: rest) q
  | goesDown {fuel place name rest q} (hname : IsName name) (hsize : name.size ≤ maxName)
      (hnode : t.node? (place ++ [name]) = some .directory)
      (hmore : Leads t fuel (place ++ [name]) rest q) : Leads t fuel place (name :: rest) q
  | ends {fuel place name} (hname : IsName name) (hsize : name.size ≤ maxName)
      (hnode : t.node? (place ++ [name]) = none ∨
        ∃ content, t.node? (place ++ [name]) = some (.file content)) :
      Leads t fuel place [name] (place ++ [name])
  | follows {fuel place name rest q target} (hname : IsName name) (hsize : name.size ≤ maxName)
      (hnode : t.node? (place ++ [name]) = some (.link target))
      (hmore : Leads t fuel (origin place target) (parts target ++ rest) q) :
      Leads t (fuel + 1) place (name :: rest) q

theorem leads_of_walk {fuel : Nat} {path : List ByteArray}
    (h : t.walk true fuel place path = .ok q) : Leads t fuel place path q := by
  induction fuel, place, path using walk_induction t true with
  | arrived fuel place =>
    rw [walk_nil] at h
    exact Except.ok.inj h ▸ .arrived fuel place
  | stays fuel place part rest hstays ih =>
    rw [walk_stays hstays] at h
    exact .stays hstays (ih h)
  | goesUp fuel place rest ih =>
    rw [walk_up] at h
    exact .goesUp (ih h)
  | tooLong fuel place name rest hname hsize =>
    rw [walk_tooLong hname hsize] at h
    cases h
  | missing fuel place name rest hname hsize hnone =>
    rw [walk_missing hname hsize hnone] at h
    obtain ⟨rfl, rfl⟩ := ends_eq_ok_iff.1 h
    exact .ends hname hsize (Or.inl hnone)
  | directory fuel place name rest hname hsize hdirectory ih =>
    rw [walk_directory hname hsize hdirectory] at h
    exact .goesDown hname hsize hdirectory (ih h)
  | file fuel place name rest content hname hsize hfile =>
    rw [walk_file hname hsize hfile] at h
    obtain ⟨rfl, rfl⟩ := ends_eq_ok_iff.1 h
    exact .ends hname hsize (Or.inr ⟨content, hfile⟩)
  | kept fuel place name rest target hname hsize hlink hends => simp at hends
  | loop place name rest target hname hsize hlink hfollows =>
    rw [walk_loop hname hsize hlink hfollows] at h
    cases h
  | link fuel place name rest target hname hsize hlink hfollows ih =>
    rw [walk_link hname hsize hlink hfollows] at h
    exact .follows hname hsize hlink (ih h)

theorem walk_of_leads {fuel : Nat} {path : List ByteArray} (h : Leads t fuel place path q) :
    t.walk true fuel place path = .ok q := by
  induction h with
  | arrived => rw [walk_nil]
  | stays hstays _ ih => rw [walk_stays hstays, ih]
  | goesUp _ ih => rw [walk_up, ih]
  | goesDown hname hsize hnode _ ih => rw [walk_directory hname hsize hnode, ih]
  | ends hname hsize hnode =>
    rcases hnode with hnode | ⟨content, hnode⟩
    · rw [walk_missing hname hsize hnode]
      rfl
    · rw [walk_file hname hsize hnode]
      rfl
  | follows hname hsize hnode _ ih => rw [walk_link hname hsize hnode (by simp), ih]

/-- The end of a path cannot be listed. -/
inductive Unlistable (t : Tree) (fuel : Nat) (place : Place) (path : List ByteArray) :
    Failure → Prop where
  | fails {failure : Failure} (hwalk : t.walk true fuel place path = .error failure) :
      Unlistable t fuel place path failure
  | missing {q : Place} (hwalk : t.walk true fuel place path = .ok q) (hnone : t.node? q = none) :
      Unlistable t fuel place path .notFound
  | file {q : Place} {content : ByteArray} (hwalk : t.walk true fuel place path = .ok q)
      (hfile : t.node? q = some (.file content)) : Unlistable t fuel place path .notADirectory

/-- What it comes to that a path goes on behind its front. -/
inductive Behind (t : Tree) (fuel : Nat) (place : Place) (front : List ByteArray) : Prop where
  /-- It goes on from where the front leads, which is a directory if it goes through none but
  directories. -/
  | goesOn (more : Nat) (top : Place) (stands : Standing t place → Standing t top)
      (walks : ∀ tail : List ByteArray,
        t.walk true fuel place (front ++ tail) = t.walk true more top tail)
  /-- It fails, as listing the end of the front does. -/
  | fails (failure : Failure)
      (walks : ∀ tail : List ByteArray, tail ≠ [] →
        t.walk true fuel place (front ++ tail) = .error failure)
      (ends : Unlistable t fuel place front failure)

theorem Behind.congr {fuel more : Nat} {top : Place} {front back : List ByteArray}
    (h : Behind t more top back) (hstands : Standing t place → Standing t top)
    (hwalk : ∀ tail : List ByteArray,
      t.walk true fuel place (front ++ tail) = t.walk true more top (back ++ tail)) :
    Behind t fuel place front := by
  cases h with
  | goesOn last q stands walks =>
    exact .goesOn last q (fun h ↦ stands (hstands h)) fun tail ↦ (hwalk tail).trans (walks tail)
  | fails failure walks ends =>
    refine .fails failure (fun tail htail ↦ (hwalk tail).trans (walks tail htail)) ?_
    have hfront := hwalk []
    rw [List.append_nil, List.append_nil] at hfront
    cases ends with
    | fails hfails => exact .fails (hfront.trans hfails)
    | missing hq hnone => exact .missing (hfront.trans hq) hnone
    | file hq hfile => exact .file (hfront.trans hq) hfile

theorem behind_of_error {fuel : Nat} {front : List ByteArray} (failure : Failure)
    (h : ∀ tail : List ByteArray, t.walk true fuel place (front ++ tail) = .error failure) :
    Behind t fuel place front := by
  refine .fails failure (fun tail _ ↦ h tail) (.fails ?_)
  rw [← List.append_nil front, h]

/-- Nothing can come behind what is missing or a file. -/
theorem behind_of_end {fuel : Nat} {rest : List ByteArray} {failure : Failure}
    (hwalk : ∀ tail : List ByteArray, t.walk true fuel place (name :: tail) =
      if tail.isEmpty then .ok q else .error failure)
    (hends : t.walk true fuel place [name] = .ok q → Unlistable t fuel place [name] failure) :
    Behind t fuel place (name :: rest) := by
  cases rest with
  | nil =>
    refine .fails failure (fun tail htail ↦ ?_) (hends (hwalk []))
    rw [List.singleton_append, hwalk, if_neg (by simpa using htail)]
  | cons second rest => exact behind_of_error failure fun tail ↦ hwalk (second :: rest ++ tail)

theorem behind (t : Tree) (fuel : Nat) (place : Place) (front : List ByteArray) :
    Behind t fuel place front := by
  induction fuel, place, front using walk_induction t true with
  | arrived fuel place => exact .goesOn fuel place id fun tail ↦ rfl
  | stays fuel place part rest hstays ih => exact ih.congr id fun tail ↦ walk_stays hstays _
  | goesUp fuel place rest ih =>
    exact ih.congr Standing.dropLast fun tail ↦ walk_up t true fuel place _
  | tooLong fuel place name rest hname hsize =>
    exact behind_of_error .nameTooLong fun tail ↦ walk_tooLong hname hsize _
  | missing fuel place name rest hname hsize hnone =>
    exact behind_of_end (walk_missing hname hsize hnone) fun hq ↦ .missing hq hnone
  | directory fuel place name rest hname hsize hdirectory ih =>
    exact ih.congr (fun h ↦ h.concat hdirectory) fun tail ↦ walk_directory hname hsize hdirectory _
  | file fuel place name rest content hname hsize hfile =>
    exact behind_of_end (walk_file hname hsize hfile) fun hq ↦ .file hq hfile
  | kept fuel place name rest target hname hsize hlink hends => simp at hends
  | loop place name rest target hname hsize hlink =>
    exact behind_of_error .linkLoop fun tail ↦ walk_loop hname hsize hlink (by simp)
  | link fuel place name rest target hname hsize hlink hfollows ih =>
    refine ih.congr (fun h ↦ h.origin target) fun tail ↦ ?_
    rw [List.cons_append, walk_link hname hsize hlink (by simp), List.append_assoc]

namespace Leads

variable {fuel : Nat} {path front names : List ByteArray} {r : Place}

theorem unique (hq : Leads t fuel place path q) (hr : Leads t fuel place path r) : q = r :=
  Except.ok.inj ((walk_of_leads hq).symm.trans (walk_of_leads hr))

/-- A path that leads somewhere leads there still when the tree has grown. -/
theorem grows (h : Grows t u) (hleads : Leads t fuel place path q) : Leads u fuel place path q := by
  induction hleads with
  | arrived => exact .arrived _ _
  | stays hstays _ ih => exact .stays hstays ih
  | goesUp _ ih => exact .goesUp ih
  | goesDown hname hsize hnode _ ih => exact .goesDown hname hsize (h.directory hnode) ih
  | @ends fuel place name hname hsize hnode =>
    rcases hnode with hnone | ⟨content, hfile⟩
    · -- Where nothing was, a directory or a file may be now.
      cases hu : u.node? (place ++ [name]) with
      | none => exact .ends hname hsize (Or.inl hu)
      | some node =>
        cases node with
        | directory => exact .goesDown hname hsize hu (.arrived _ _)
        | file content => exact .ends hname hsize (Or.inr ⟨content, hu⟩)
        | link target => exact absurd hu (h.unlinked hnone)
    · exact .ends hname hsize (Or.inr (h.file hfile))
  | follows hname hsize hnode _ ih => exact .follows hname hsize (h.link hnode) ih

/-- A path that goes on behind its front goes on from where the front leads, whatever comes behind
the front, and a directory stands there. -/
theorem append (h : Leads t fuel [] (front ++ names) q) (hnames : names ≠ []) :
    ∃ more top, Standing t top ∧ ∀ tail : List ByteArray,
      t.walk true fuel [] (front ++ tail) = t.walk true more top tail := by
  cases behind t fuel [] front with
  | goesOn more top stands walks => exact ⟨more, top, stands (.nil t), walks⟩
  | fails failure walks => cases (walks names hnames).symm.trans (walk_of_leads h)

/-- A name leads to what it names, unless that is a symbolic link. -/
theorem of_name (h : Leads t fuel place [name] q) (hname : IsName name)
    (hlink : ∀ target, t.node? (place ++ [name]) ≠ some (.link target)) : q = place ++ [name] := by
  cases h with
  | stays hstays _ =>
    rw [hname.1] at hstays
    cases hstays
  | goesUp => exact absurd rfl hname.2
  | goesDown _ _ _ hmore =>
    cases hmore
    rfl
  | ends => rfl
  | follows _ _ hnode => exact absurd hnode (hlink _)

/-- Where no symbolic link is, names lead down, through directories. -/
theorem of_names (h : Leads t fuel place names q) (hnames : ∀ name ∈ names, IsName name)
    (hlinks : ∀ below target, below ≠ [] → t.node? (place ++ below) ≠ some (.link target)) :
    q = place ++ names ∧ ∀ above last, names = above ++ [last] → above ≠ [] →
      t.node? (place ++ above) = some .directory := by
  induction h with
  | arrived => exact ⟨(List.append_nil _).symm, by simp⟩
  | @stays fuel place part rest q hstays _ =>
    rw [(hnames part List.mem_cons_self).1] at hstays
    cases hstays
  | goesUp => exact absurd rfl (hnames up List.mem_cons_self).2
  | @goesDown fuel place name rest q hname hsize hnode hmore ih =>
    obtain ⟨hq, habove⟩ := ih (fun n hn ↦ hnames n (List.mem_cons_of_mem name hn))
      fun below target _ ↦ by
        rw [List.append_assoc]
        exact hlinks _ target (List.cons_ne_nil name below)
    refine ⟨by rw [hq, List.append_assoc]; rfl, fun above last hsplit hne ↦ ?_⟩
    obtain ⟨first, above, rfl⟩ := List.exists_cons_of_ne_nil hne
    obtain ⟨rfl, hrest⟩ := List.cons.inj hsplit
    by_cases hnil : above = []
    · rwa [hnil]
    · have hnode' := habove above last hrest hnil
      rwa [List.append_assoc] at hnode'
  | ends =>
    refine ⟨rfl, fun above last hsplit hne ↦ ?_⟩
    obtain ⟨first, above, rfl⟩ := List.exists_cons_of_ne_nil hne
    exact absurd (List.append_eq_nil_iff.1 (List.cons.inj hsplit).2.symm).2 (by simp)
  | @follows fuel place name rest q target hname hsize hnode _ =>
    exact absurd hnode (hlinks [name] target (List.cons_ne_nil name []))

/-- In a tree without symbolic links, a path that does not go up leads down along its names. -/
theorem of_unlinked (h : Leads t fuel place path q) (hup : up ∉ path)
    (hlinks : ∀ place target, t.node? place ≠ some (.link target)) :
    q = place ++ path.filter (!staysHere ·) := by
  induction h with
  | arrived => rw [List.filter_nil, List.append_nil]
  | stays hstays _ ih =>
    rw [ih fun hmem ↦ hup (List.mem_cons_of_mem _ hmem),
      List.filter_cons_of_neg (by rw [hstays]; decide)]
  | goesUp => exact absurd List.mem_cons_self hup
  | goesDown hname _ _ _ ih =>
    rw [ih fun hmem ↦ hup (List.mem_cons_of_mem _ hmem),
      List.filter_cons_of_pos (by rw [hname.1]; rfl), List.append_assoc]
    rfl
  | ends hname => rw [List.filter_cons_of_pos (by rw [hname.1]; rfl), List.filter_nil]
  | follows _ _ hnode => exact absurd hnode (hlinks _ _)

end Leads

/-- Where nothing but directories can be in the way, names lead to the place that they name, or it
is found that nothing is there. -/
theorem walk_names {names : List ByteArray} (fuel : Nat)
    (hnames : ∀ name ∈ names, IsName name ∧ name.size ≤ maxName)
    (hnodes : ∀ above, above ≠ [] → above <+: names →
      t.node? (place ++ above) = none ∨ t.node? (place ++ above) = some .directory) :
    t.walk true fuel place names = .ok (place ++ names) ∨
      t.walk true fuel place names = .error .notFound := by
  induction names generalizing place with
  | nil => rw [walk_nil, List.append_nil]; exact Or.inl rfl
  | cons name rest ih =>
    obtain ⟨hname, hsize⟩ := hnames name List.mem_cons_self
    have hfirst : [name] <+: name :: rest := ⟨rest, rfl⟩
    rcases hnodes [name] (List.cons_ne_nil name []) hfirst with hnone | hdirectory
    · rw [walk_missing hname hsize hnone]
      cases rest with
      | nil => exact Or.inl rfl
      | cons second rest => exact Or.inr rfl
    · rw [walk_directory hname hsize hdirectory]
      have hbelow (above : Place) (_ : above ≠ []) (habove : above <+: rest) :
          t.node? (place ++ [name] ++ above) = none ∨
            t.node? (place ++ [name] ++ above) = some .directory := by
        rw [List.append_assoc]
        exact hnodes _ (List.cons_ne_nil name above) (List.cons_prefix_cons.2 ⟨rfl, habove⟩)
      have hrest := ih (fun n hn ↦ hnames n (List.mem_cons_of_mem name hn)) hbelow
      rwa [List.append_assoc] at hrest

end ImageRegistry.Files.Tree
