import ImageRegistry.Link.Cache
import ImageRegistry.Proofs.Link.Parts
import ImageRegistry.Proofs.Text.Blank
import ImageRegistry.Resolver.Files
import Mathlib.Data.List.Basic

/-!
# Tags of repositories

Any text can be the repository or the reference of a link. Those that a registry is asked for are
better behaved: the parts of a repository go down, and none of them begins like the name of a link
file, a tag has no slash, and an identifier is a line without blanks around it. The place of a link
file beneath the root then tells the repository and the tag (`spot_inj`), and no digest would have
the place of a tag (`spot_ne_of_isDigest`). Both readers of link files read the identifier that was
written to one (`firstIdentifier_line`, `listed_line`).
-/

namespace ImageRegistry

namespace Text

universe u

variable {α : Type u} [DecidableEq α]

/-- The parts of a text, with the marks between them, are the text. -/
theorem intercalate_segments (mark : α) (text : List α) :
    [mark].intercalate (segments mark text) = text := by
  induction text with
  | nil => rfl
  | cons c rest ih =>
    obtain ⟨first, more, hrest⟩ := List.exists_cons_of_ne_nil (segments_ne_nil mark rest)
    rw [hrest] at ih
    rw [segments, hrest]
    split
    · next hc =>
      rw [List.intercalate_cons_cons, ih, hc]
      rfl
    · cases more with
      | nil =>
        rw [List.intercalate_singleton] at ih ⊢
        rw [ih]
      | cons second more =>
        rw [List.intercalate_cons_cons] at ih ⊢
        rw [← ih]
        rfl

theorem segments_inj {mark : α} {text other : List α}
    (h : segments mark text = segments mark other) : text = other := by
  rw [← intercalate_segments mark text, h, intercalate_segments]

/-- A text that ends with its first line feed is one line. -/
theorem lines_concat {line : List Char} (h : '\n' ∉ line) : lines (line ++ ['\n']) = [line] := by
  induction line with
  | nil => rfl
  | cons c rest ih =>
    rw [List.mem_cons, not_or] at h
    rw [List.cons_append, lines, if_neg (Ne.symm h.1), ih h.2]

theorem trim_of_isBare {text : List Char} (hbare : IsBare text) (hne : text ≠ []) :
    trim text = text := by
  have htrim : trim ([] ++ text ++ []) = text := trim_append hbare hne (by simp) (by simp)
  rwa [List.nil_append, List.append_nil] at htrim

end Text

namespace Link

variable {repository reference identifier : String}

/-! ### Tags and identifiers -/

/-- The parts of a repository go down, and none of them begins like the name of a link file. -/
def IsRepository (repository : String) : Prop :=
  ∀ part ∈ Text.segments '/' repository.toList, isSkipped part = false ∧ part.head? ≠ some mark

instance (repository : String) : Decidable (IsRepository repository) :=
  inferInstanceAs (Decidable (∀ part ∈ Text.segments '/' repository.toList, _ ∧ _))

/-- A reference that is written without a slash and has not the shape of a digest. -/
structure IsTag (reference : String) : Prop where
  ne_empty : reference ≠ ""
  slash_not_mem : '/' ∉ reference.toList
  isDigest : Digest.isDigest reference = false

instance (reference : String) : Decidable (IsTag reference) :=
  decidable_of_iff
    (reference ≠ "" ∧ '/' ∉ reference.toList ∧ Digest.isDigest reference = false)
    ⟨fun ⟨hne, hslash, hdigest⟩ ↦ ⟨hne, hslash, hdigest⟩,
      fun h ↦ ⟨h.ne_empty, h.slash_not_mem, h.isDigest⟩⟩

/-- A line of text without blanks around it. -/
structure IsIdentifier (identifier : String) : Prop where
  ne_empty : identifier ≠ ""
  newline_not_mem : '\n' ∉ identifier.toList
  isBare : Text.IsBare identifier.toList

instance (identifier : String) : Decidable (IsIdentifier identifier) :=
  decidable_of_iff
    (identifier ≠ "" ∧ '\n' ∉ identifier.toList ∧ Text.IsBare identifier.toList)
    ⟨fun ⟨hne, hline, hbare⟩ ↦ ⟨hne, hline, hbare⟩,
      fun h ↦ ⟨h.ne_empty, h.newline_not_mem, h.isBare⟩⟩

theorem IsIdentifier.trim (h : IsIdentifier identifier) :
    Text.trim identifier.toList = identifier.toList :=
  Text.trim_of_isBare h.isBare fun hnil ↦ h.ne_empty (String.toList_eq_nil_iff.1 hnil)

theorem IsIdentifier.lines (h : IsIdentifier identifier) :
    Text.lines (identifier ++ "\n").toList = [identifier.toList] := by
  rw [String.toList_append]
  exact Text.lines_concat h.newline_not_mem

/-- The cache reads the identifier of a link file from its only line. -/
theorem firstIdentifier_line (h : IsIdentifier identifier) :
    Cache.firstIdentifier (identifier ++ "\n") = some identifier := by
  have hne : identifier.toList.isEmpty = false := by
    simpa [String.toList_eq_nil_iff] using h.ne_empty
  rw [Cache.firstIdentifier, h.lines]
  simp only [h.trim, hne, String.ofList_toList]
  rfl

/-- A resolver lists the identifier of a link file alone. -/
theorem listed_line (h : IsIdentifier identifier) :
    Resolver.listed (identifier ++ "\n") = [identifier] := by
  have hne : identifier.toList.isEmpty = false := by
    simpa [String.toList_eq_nil_iff] using h.ne_empty
  rw [Resolver.listed, h.lines, List.map_singleton, h.trim]
  simp [hne]

/-! ### Places of link files -/

/-- The place of a link file, as names from the root down. -/
def spot (repository reference : String) : Files.Place :=
  (parts repository ++ [fileName reference]).map encoded

theorem spot_eq (repository reference : String) :
    spot repository reference = (parts repository).map encoded ++ [nameOf reference] := by
  rw [spot, List.map_append]
  rfl

theorem isName_of_mem_spot {name : ByteArray} (h : name ∈ spot repository reference) :
    Files.IsName name := by
  obtain ⟨part, hpart, rfl⟩ := List.mem_map.1 h
  rcases List.mem_append.1 hpart with hpart | hpart
  · exact isName_of_mem_parts hpart
  · rw [List.mem_singleton.1 hpart]
    exact isName_nameOf reference

theorem spot_ne_nil (repository reference : String) : spot repository reference ≠ [] := by
  rw [spot_eq]
  exact List.append_ne_nil_of_right_ne_nil _ (List.cons_ne_nil _ _)

/-- Places are the same when the parts of the repositories and the escaped references are. -/
theorem spot_eq_iff {s g : String} : spot repository reference = spot s g ↔
    parts repository = parts s ∧ escaped reference = escaped g := by
  rw [spot, spot, List.map_inj_right fun _ _ ↦ encoded_inj.1, append_fileName_inj]

theorem parts_of_isRepository (h : IsRepository repository) :
    parts repository = Text.segments '/' repository.toList := by
  refine List.filter_eq_self.2 fun part hpart ↦ ?_
  rw [(h part hpart).1]
  rfl

theorem parts_inj {s : String} (hrepository : IsRepository repository) (hs : IsRepository s)
    (h : parts repository = parts s) : repository = s := by
  rw [parts_of_isRepository hrepository, parts_of_isRepository hs] at h
  exact String.toList_inj.1 (Text.segments_inj h)

theorem escaped_inj {g : String} (hreference : IsTag reference) (hg : IsTag g)
    (h : escaped reference = escaped g) : reference = g := by
  rw [escaped_of_not_mem hreference.slash_not_mem, escaped_of_not_mem hg.slash_not_mem] at h
  exact String.toList_inj.1 h

/-- The place of a link file tells the repository and the tag. -/
theorem spot_inj {s g : String} (hrepository : IsRepository repository) (hs : IsRepository s)
    (hreference : IsTag reference) (hg : IsTag g) (h : spot repository reference = spot s g) :
    repository = s ∧ reference = g := by
  obtain ⟨hparts, hescaped⟩ := spot_eq_iff.1 h
  exact ⟨parts_inj hrepository hs hparts, escaped_inj hreference hg hescaped⟩

/-- An escaped digest has the shape of a digest still. -/
theorem isDigest_escaped (h : Digest.isDigest reference = true) :
    Digest.isDigest (String.ofList (escaped reference)) = true := by
  obtain ⟨algorithm, digits, hreference, hcolon, halgorithm, hdigits⟩ := Digest.isDigest_iff.1 h
  have hne {l : List Char} (hl : l ≠ []) :
      l.flatMap (fun c ↦ if c = '/' then ['%', '2', 'F'] else [c]) ≠ [] := by
    obtain ⟨c, rest, rfl⟩ := List.exists_cons_of_ne_nil hl
    rw [List.flatMap_cons]
    split <;> exact List.cons_ne_nil _ _
  refine Digest.isDigest_iff.2 ⟨_, _, ?_, ?_, hne halgorithm, hne hdigits⟩
  · rw [String.toList_ofList, escaped, hreference, List.flatMap_append, List.flatMap_cons]
    rfl
  · rw [List.mem_flatMap]
    rintro ⟨c, hc, hmem⟩
    split at hmem
    · revert hmem
      decide
    · obtain rfl := List.mem_singleton.1 hmem
      exact hcolon hc

/-- No digest would have the link file of a tag. -/
theorem spot_ne_of_isDigest {s g : String} (hreference : Digest.isDigest reference = true)
    (hg : IsTag g) : spot s g ≠ spot repository reference := by
  intro h
  have hdigest := isDigest_escaped hreference
  rw [← (spot_eq_iff.1 h).2, escaped_of_not_mem hg.slash_not_mem, String.ofList_toList,
    hg.isDigest] at hdigest
  cases hdigest

end Link

end ImageRegistry
