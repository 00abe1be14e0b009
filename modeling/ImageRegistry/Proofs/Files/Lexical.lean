import ImageRegistry.Proofs.Files.Spare

/-!
# Paths as they are written

A path is made of components: where it begins, the names that it goes down and the steps up. Paths
are compared by their components alone, before any tree of files says where they lead, and what
stays where it is does not count. One path is `OnTheWay` to another one if its components come
first, and the other one is `Beneath` it if from there on only names follow: behind a step up
nothing is beneath any more.

To make a directory the directories on the way to it are made, so every path that is asked for in
doing so is on the way to the end of the path (`Tree.changes_ensureParent`). The names of what is
made are parts of paths, so they hold no slash if none did before (`Tree.Changes.named`).
-/

namespace ImageRegistry

namespace Text

universe u

variable {α : Type u} [DecidableEq α]

/-- What holds no mark goes to the first part. -/
theorem segments_append_of_not_mem {mark : α} {lead : List α} (h : mark ∉ lead) (text : List α) :
    ∃ first rest, segments mark text = first :: rest ∧
      segments mark (lead ++ text) = (lead ++ first) :: rest := by
  induction lead with
  | nil =>
    obtain ⟨first, rest, hparts⟩ := List.exists_cons_of_ne_nil (segments_ne_nil mark text)
    exact ⟨first, rest, hparts, hparts⟩
  | cons c lead ih =>
    rw [List.mem_cons, not_or] at h
    obtain ⟨first, rest, htext, hlead⟩ := ih h.2
    refine ⟨first, rest, htext, ?_⟩
    rw [List.cons_append, segments, if_neg (Ne.symm h.1), hlead]
    rfl

theorem byteList_append (a b : ByteArray) : byteList (a ++ b) = byteList a ++ byteList b := by
  rw [byteList, ByteArray.data_append, Array.toList_append]
  rfl

end Text

namespace Files

/-! ### Components -/

/-- A component of a path. -/
inductive Component where
  /-- The path begins at the top. -/
  | top
  /-- The path begins where it is. -/
  | here
  /-- A step up. -/
  | up
  /-- Something below. -/
  | name (bytes : ByteArray)

/-- Whether a component stays where it is. -/
def Component.isHere : Component → Bool
  | top => false
  | here => true
  | up => false
  | name _ => false

/-- The component that a part of a path is, if it does not stay where it is. -/
def component? (part : ByteArray) : Option Component :=
  if staysHere part then none else if part = Files.up then some .up else some (.name part)

/-- What the first part of a path says of where it begins. -/
def beginning (first : ByteArray) (rest : List ByteArray) : List Component :=
  if first.isEmpty then if rest.isEmpty then [] else [.top]
  else if staysHere first then [.here]
  else (component? first).toList

/-- The components that the parts of a path are. -/
def componentsOf : List ByteArray → List Component
  | [] => []
  | first :: rest => beginning first rest ++ rest.filterMap component?

/-- The components of a path. -/
def components (path : ByteArray) : List Component := componentsOf (parts path)

/-- The components that do not stay where they are. -/
def steps (path : ByteArray) : List Component := (components path).filter (!·.isHere)

/-- One path is written on the way to another one, or at it. -/
def OnTheWay (above below : ByteArray) : Prop := steps above <+: steps below

/-- One path is written beneath another one, or at it: only names come behind the other one. -/
def Beneath (above below : ByteArray) : Prop :=
  ∃ names : List ByteArray, steps below = steps above ++ names.map .name

variable {part first : ByteArray} {above below more : List ByteArray} {path : ByteArray}

theorem isEmpty_eq_true_iff {bytes : ByteArray} :
    bytes.isEmpty = true ↔ bytes = ByteArray.empty := by
  rw [ByteArray.isEmpty, beq_iff_eq, ByteArray.size_eq_zero_iff]

theorem component?_of_isName (h : IsName part) : component? part = some (.name part) := by
  rw [component?, h.1, if_neg h.2]
  rfl

theorem isHere_of_component? {c : Component} (h : component? part = some c) : c.isHere = false := by
  rw [component?] at h
  split at h
  · cases h
  · split at h <;> cases h <;> rfl

/-- A first part that does not stay where it is does not depend on what comes behind it. -/
theorem beginning_of_not_staysHere (h : staysHere first = false) (rest : List ByteArray) :
    beginning first rest = (component? first).toList := by
  have hempty : first.isEmpty = false := (Bool.or_eq_false_iff.1 h).1
  rw [beginning, hempty, h]
  rfl

/-- Parts of which the first does not stay where it is are their components. -/
theorem componentsOf_of_not_staysHere (h : ∀ first ∈ more.head?, staysHere first = false) :
    componentsOf more = more.filterMap component? := by
  cases more with
  | nil => rfl
  | cons first rest =>
    have hfirst := h first rfl
    rw [componentsOf, beginning_of_not_staysHere hfirst]
    cases hcomponent : component? first with
    | none => rw [List.filterMap_cons_none hcomponent]; rfl
    | some c => rw [List.filterMap_cons_some hcomponent]; rfl

/-- Behind other parts, more parts are more components. That nothing can come behind a single empty
part keeps the path at the top apart from the empty one. -/
theorem componentsOf_append (hne : above ≠ []) (h : above = [ByteArray.empty] → more = []) :
    componentsOf (above ++ more) = componentsOf above ++ more.filterMap component? := by
  obtain ⟨first, rest, rfl⟩ := List.exists_cons_of_ne_nil hne
  have hbeginning : beginning first (rest ++ more) = beginning first rest := by
    cases rest with
    | cons second rest => rfl
    | nil =>
      cases hempty : first.isEmpty with
      | false => rw [beginning, beginning, hempty]; rfl
      | true => rw [h (by rw [isEmpty_eq_true_iff.1 hempty]), List.append_nil]
  rw [List.cons_append, componentsOf, hbeginning, List.filterMap_append, ← List.append_assoc]
  rfl

/-- It does not matter what comes behind other parts, for where the path begins. -/
theorem componentsOf_append_empty (hne : above ≠ []) (hmore : more ≠ []) :
    componentsOf (above ++ more) =
      componentsOf (above ++ [ByteArray.empty]) ++ more.filterMap component? := by
  obtain ⟨first, rest, rfl⟩ := List.exists_cons_of_ne_nil hne
  obtain ⟨second, more, rfl⟩ := List.exists_cons_of_ne_nil hmore
  have hbeginning (part : ByteArray) (parts : List ByteArray) :
      beginning first (rest ++ part :: parts) = beginning first (rest ++ [ByteArray.empty]) := by
    cases rest <;> rfl
  rw [List.cons_append, List.cons_append, componentsOf, componentsOf, hbeginning,
    List.filterMap_append, List.filterMap_append, List.append_assoc, List.append_assoc]
  rfl

/-- What stays where it is can be left out behind the first part. -/
theorem filterMap_component?_filter (l : List ByteArray) :
    (l.filter (!staysHere ·)).filterMap component? = l.filterMap component? := by
  rw [List.filterMap_filter]
  congr 1
  funext part
  cases h : staysHere part with
  | true => rw [component?, h]; rfl
  | false => rfl

theorem filter_filterMap_component? (l : List ByteArray) :
    (l.filterMap component?).filter (!·.isHere) = l.filterMap component? := by
  refine List.filter_eq_self.2 fun c hc ↦ ?_
  obtain ⟨part, -, hcomponent⟩ := List.mem_filterMap.1 hc
  rw [isHere_of_component? hcomponent]
  rfl

section Paths

variable {above below path : ByteArray}

/-- The beginnings of the components of a path are on the way to it. -/
theorem onTheWay_of_prefix (h : components above <+: components below) : OnTheWay above below :=
  h.filter _

/-- Names behind the components of a path lead beneath it. -/
theorem beneath_of_append (names : List ByteArray)
    (h : components below = components above ++ names.map .name) : Beneath above below := by
  have hnames : (names.map Component.name).filter (!·.isHere) = names.map .name :=
    List.filter_eq_self.2 fun c hc ↦ by
      obtain ⟨name, -, rfl⟩ := List.mem_map.1 hc
      rfl
  exact ⟨names, by rw [steps, h, List.filter_append, hnames, steps]⟩

theorem Beneath.trans (h : Beneath above path) (hmore : Beneath path below) :
    Beneath above below := by
  obtain ⟨names, hnames⟩ := h
  obtain ⟨more, hmore⟩ := hmore
  exact ⟨names ++ more, by rw [hmore, hnames, List.append_assoc, List.map_append]⟩

theorem Beneath.onTheWay (h : Beneath above below) : OnTheWay above below := by
  obtain ⟨names, hnames⟩ := h
  exact ⟨_, hnames.symm⟩

/-- On the way to what is beneath a path, one is on the way to the path or beneath it. -/
theorem Beneath.of_onTheWay (h : Beneath above below) (hpath : OnTheWay path below) :
    Beneath above path ∨ OnTheWay path above := by
  rcases List.prefix_or_prefix_of_prefix h.onTheWay hpath with ⟨more, hmore⟩ | hway
  · obtain ⟨names, hnames⟩ := h
    rw [OnTheWay, hnames, ← hmore, List.prefix_append_right_inj] at hpath
    obtain ⟨front, -, rfl⟩ := List.prefix_map_iff.1 hpath
    exact Or.inl ⟨front, hmore.symm⟩
  · exact Or.inr hway

end Paths

/-! ### The way to the end of a path -/

/-- No part of a path holds a slash. -/
theorem slash_not_mem_of_mem_parts (h : part ∈ parts path) : 0x2f ∉ Text.byteList part := by
  obtain ⟨bytes, hbytes, rfl⟩ := List.mem_map.1 h
  exact Text.not_mem_of_mem_segments hbytes

namespace Tree

/-- The parts of a path that is put together are what it was put together from. -/
theorem parts_joined {l : List ByteArray} (hne : l ≠ [])
    (hslash : ∀ part ∈ l, 0x2f ∉ Text.byteList part) : parts (joined l) = l := by
  induction l with
  | nil => exact absurd rfl hne
  | cons part rest ih =>
    have hpart := hslash part List.mem_cons_self
    cases rest with
    | nil =>
      rw [joined, parts, Text.segments_of_not_mem hpart]
      rfl
    | cons second rest =>
      have hrest := ih (List.cons_ne_nil second rest)
        fun other hother ↦ hslash other (List.mem_cons_of_mem part hother)
      have hbytes : Text.byteList (joined (part :: second :: rest)) =
          Text.byteList part ++ 0x2f :: Text.byteList (joined (second :: rest)) := by
        rw [joined, Text.byteList_append, Text.byteList_append, List.append_assoc]
        · rfl
        · exact List.cons_ne_nil second rest
      rw [parts, hbytes, Text.segments_append, Text.segments_of_not_mem hpart, List.map_append,
        ← parts, hrest]
      rfl

/-- The parts of a path that name something are parts of it. -/
theorem mem_parts_of_mem_namedParts (h : part ∈ namedParts path) : part ∈ parts path := by
  rw [namedParts] at h
  split at h
  · cases h
  · next first rest hparts =>
    rw [hparts]
    have hrest (hpart : part ∈ rest.filter (!staysHere ·)) : part ∈ first :: rest :=
      List.mem_cons_of_mem first ((List.mem_filter.1 hpart).1)
    rw [List.mem_reverse] at h
    split at h
    · rcases List.mem_cons.1 h with rfl | h
      · exact List.mem_cons_self
      · exact hrest h
    · exact hrest h

/-- The path that some of the first parts are put together to has its components first. -/
theorem componentsOf_prefix {names rest : List ByteArray}
    (hfirst : first.isEmpty = true ∨ staysHere first = false)
    (h : names <+: rest.filter (!staysHere ·)) :
    componentsOf (first :: names) <+: componentsOf (first :: rest) := by
  have hnames : names.filterMap component? <+: rest.filterMap component? := by
    rw [← filterMap_component?_filter rest]
    exact h.filterMap component?
  rw [componentsOf, componentsOf]
  cases hstays : staysHere first with
  | false =>
    rw [beginning_of_not_staysHere hstays, beginning_of_not_staysHere hstays]
    exact (List.prefix_append_right_inj _).2 hnames
  | true =>
    have hempty : first.isEmpty = true :=
      hfirst.resolve_right (by rw [hstays]; exact Bool.noConfusion)
    cases names with
    | nil =>
      -- A path of one empty part has no components.
      rw [beginning, hempty]
      exact List.nil_prefix
    | cons second names =>
      have hrest : rest.isEmpty = false := by
        refine Bool.eq_false_iff.2 fun hrest ↦ ?_
        rw [List.isEmpty_iff.1 hrest] at h
        exact absurd (List.prefix_nil.1 h) (List.cons_ne_nil second names)
      rw [beginning, beginning, hempty, hrest]
      exact (List.prefix_append_right_inj _).2 hnames

/-- What the first parts of a path that name something are put together to is on the way to it. -/
theorem onTheWay_of_prefix_namedParts (h : above <+: (namedParts path).reverse) :
    OnTheWay (joined above) path := by
  cases above with
  | nil => exact List.nil_prefix
  | cons name names =>
    have hslash : ∀ part ∈ name :: names, 0x2f ∉ Text.byteList part := fun part hpart ↦
      slash_not_mem_of_mem_parts
        (mem_parts_of_mem_namedParts (List.mem_reverse.1 (h.subset hpart)))
    have hjoined : components (joined (name :: names)) = componentsOf (name :: names) := by
      rw [components, parts_joined (List.cons_ne_nil name names) hslash]
    rw [namedParts] at h
    split at h
    · exact absurd (List.prefix_nil.1 h) (List.cons_ne_nil name names)
    · next first rest hparts =>
      rw [List.reverse_reverse] at h
      split at h
      · next hfirst =>
        obtain ⟨rfl, hnames⟩ := List.cons_prefix_cons.1 h
        refine onTheWay_of_prefix ?_
        rw [hjoined, components, hparts]
        refine componentsOf_prefix ?_ hnames
        rwa [Bool.or_eq_true, Bool.not_eq_true'] at hfirst
      · next hfirst =>
        -- The path begins where it is, which does not count.
        have hname : ∀ first ∈ (name :: names).head?, staysHere first = false := by
          rintro _ ⟨⟩
          simpa using (List.mem_filter.1 (h.subset List.mem_cons_self)).2
        rw [Bool.or_eq_true, not_or, Bool.not_eq_true', Bool.not_eq_false] at hfirst
        rw [OnTheWay, steps, hjoined, componentsOf_of_not_staysHere hname,
          filter_filterMap_component?, steps, components, hparts, componentsOf, beginning,
          if_neg hfirst.1, if_pos hfirst.2, List.filter_append, filter_filterMap_component?,
          ← filterMap_component?_filter rest]
        exact h.filterMap component?

/-! ### Changes at some paths only -/

/-- A tree comes from another one by making directories and writing files at the ends of some
paths. -/
inductive Changes (directories files : ByteArray → Prop) : Tree → Tree → Prop where
  | refl (t : Tree) : Changes directories files t t
  | make {t u v : Tree} {path : ByteArray} (hpath : directories path)
      (hmake : t.make path .directory = .ok u) (hmore : Changes directories files u v) :
      Changes directories files t v
  | write {t u v : Tree} {path content : ByteArray} (hpath : files path)
      (hwrite : t.write path content = .ok u) (hmore : Changes directories files u v) :
      Changes directories files t v

variable {directories files : ByteArray → Prop} {t u v : Tree}

theorem Changes.trans (htu : Changes directories files t u) (huv : Changes directories files u v) :
    Changes directories files t v := by
  induction htu with
  | refl t => exact huv
  | make hpath hmake _ ih => exact .make hpath hmake (ih huv)
  | write hpath hwrite _ ih => exact .write hpath hwrite (ih huv)

theorem Changes.mono {more : ByteArray → Prop} (h : Changes directories files t u)
    (hmore : ∀ path, directories path → more path) : Changes more files t u := by
  induction h with
  | refl t => exact .refl t
  | make hpath hmake _ ih => exact .make (hmore _ hpath) hmake ih
  | write hpath hwrite _ ih => exact .write hpath hwrite ih

/-- Directories are made at the end of a path and at beginnings of it. -/
theorem changes_makeDirectories {l : List ByteArray} (t : Tree)
    (h : ∀ above, above <+: l.reverse → directories (joined above)) :
    Changes directories files t (t.makeDirectories l).2 := by
  induction l generalizing t with
  | nil => exact .refl t
  | cons name above ih =>
    have hlast : directories (joined (name :: above).reverse) := h _ (List.prefix_refl _)
    have habove := fun t ↦ ih t fun front hfront ↦ h front (by
      rw [List.reverse_cons]
      exact hfront.trans (List.prefix_append _ _))
    rw [makeDirectories]
    split
    · exact .refl t
    · split
      · next made hmade => exact .make hlast hmade (.refl made)
      · split
        · next failure made hmore =>
          have hchanges := habove t
          rwa [hmore] at hchanges
        · next made hmore =>
          have hchanges := habove t
          rw [hmore] at hchanges
          split
          · next full hfull => exact hchanges.trans (.make hlast hfull (.refl full))
          · exact hchanges
      · exact .refl t

/-- To make the directory in which a path ends, directories are made on the way to it. -/
theorem changes_ensureParent (t : Tree) (path : ByteArray) :
    Changes (OnTheWay · path) files t (t.ensureParent path).2 := by
  refine changes_makeDirectories t fun above habove ↦ onTheWay_of_prefix_namedParts ?_
  rw [← List.dropLast_reverse] at habove
  exact habove.trans (List.dropLast_prefix _)

/-! ### Names without slashes -/

/-- No name in the tree holds a slash. -/
def Named (t : Tree) : Prop :=
  ∀ place node, t.node? place = some node → ∀ name ∈ place, 0x2f ∉ Text.byteList name

theorem Named.put {place : Place} {node : Node} (h : t.Named) (hne : place ≠ [])
    (hplace : ∀ name ∈ place, 0x2f ∉ Text.byteList name) : (t.put place node).Named := by
  intro q other hother
  rw [node?_put hne] at hother
  split at hother
  · next hsame => exact hsame ▸ hplace
  · exact h q other hother

/-- A path leads to a place whose names come from the path, or from symbolic links on the way. -/
theorem slash_not_mem_of_walk {follow : Bool} {fuel : Nat} {place q : Place}
    {path : List ByteArray} (hplace : ∀ name ∈ place, 0x2f ∉ Text.byteList name)
    (hpath : ∀ part ∈ path, 0x2f ∉ Text.byteList part)
    (h : t.walk follow fuel place path = .ok q) : ∀ name ∈ q, 0x2f ∉ Text.byteList name := by
  have hnext {place : Place} {name : ByteArray} (hplace : ∀ name ∈ place, 0x2f ∉ Text.byteList name)
      (hname : 0x2f ∉ Text.byteList name) :
      ∀ other ∈ place ++ [name], 0x2f ∉ Text.byteList other :=
    List.forall_mem_append.2 ⟨hplace, List.forall_mem_singleton.2 hname⟩
  induction fuel, place, path using walk_induction t follow with
  | arrived =>
    rw [walk_nil] at h
    exact Except.ok.inj h ▸ hplace
  | stays fuel place part rest hstays ih =>
    rw [walk_stays hstays] at h
    exact ih hplace (List.forall_mem_cons.1 hpath).2 h
  | goesUp fuel place rest ih =>
    rw [walk_up] at h
    exact ih (fun name hname ↦ hplace name (List.dropLast_subset place hname))
      (List.forall_mem_cons.1 hpath).2 h
  | tooLong fuel place first rest hfirst hsize =>
    rw [walk_tooLong hfirst hsize] at h
    cases h
  | missing fuel place first rest hfirst hsize hnode =>
    rw [walk_missing hfirst hsize hnode] at h
    exact (ends_eq_ok_iff.1 h).2 ▸ hnext hplace (List.forall_mem_cons.1 hpath).1
  | directory fuel place first rest hfirst hsize hnode ih =>
    rw [walk_directory hfirst hsize hnode] at h
    obtain ⟨hslash, hrest⟩ := List.forall_mem_cons.1 hpath
    exact ih (hnext hplace hslash) hrest h
  | file fuel place first rest content hfirst hsize hnode =>
    rw [walk_file hfirst hsize hnode] at h
    exact (ends_eq_ok_iff.1 h).2 ▸ hnext hplace (List.forall_mem_cons.1 hpath).1
  | kept fuel place first rest target hfirst hsize hnode hends =>
    rw [walk_kept hfirst hsize hnode hends] at h
    exact Except.ok.inj h ▸ hnext hplace (List.forall_mem_cons.1 hpath).1
  | loop place first rest target hfirst hsize hnode hfollows =>
    rw [walk_loop hfirst hsize hnode hfollows] at h
    cases h
  | link fuel place first rest target hfirst hsize hnode hfollows ih =>
    rw [walk_link hfirst hsize hnode hfollows] at h
    refine ih ?_ (List.forall_mem_append.2
      ⟨fun part hpart ↦ slash_not_mem_of_mem_parts hpart, (List.forall_mem_cons.1 hpath).2⟩) h
    rw [origin]
    split
    · exact List.forall_mem_nil _
    · exact hplace

theorem slash_not_mem_of_locate {follow : Bool} {path : ByteArray} {place : Place}
    (h : t.locate follow path = .ok place) : ∀ name ∈ place, 0x2f ∉ Text.byteList name :=
  slash_not_mem_of_walk (List.forall_mem_nil _) (fun _ hpart ↦ slash_not_mem_of_mem_parts hpart)
    (locate_eq_ok_iff.1 h).2

/-- What is made or written at the end of a path gets its name from there. -/
theorem Changes.named (h : Changes directories files t u) (ht : t.Named) : u.Named := by
  induction h with
  | refl t => exact ht
  | make hpath hmake _ ih =>
    obtain ⟨place, hlocate, hput⟩ := bind_eq_ok_iff.1 hmake
    split at hput
    · cases hput
    · next hnone =>
      rw [← Except.ok.inj hput] at ih
      exact ih (ht.put (by rintro rfl; cases hnone) (slash_not_mem_of_locate hlocate))
  | write hpath hwrite _ ih =>
    obtain ⟨place, hlocate, hput⟩ := bind_eq_ok_iff.1 hwrite
    split at hput
    · cases hput
    · next hdirectory =>
      rw [← Except.ok.inj hput] at ih
      exact ih (ht.put (by rintro rfl; exact hdirectory rfl) (slash_not_mem_of_locate hlocate))

end Tree

end Files

end ImageRegistry
