import ImageRegistry.Proofs.Files.Lexical
import ImageRegistry.Proofs.Link.Path
import ImageRegistry.Resolver.Files
import ImageRegistry.Text.Utf8

/-!
# The parts of the path of a link file

The path of a link file is the root with the parts of the repository and the name of the file pushed
to it, one after the other. What is pushed is a part of its own, behind the `trunk` of the path that
it is pushed to, and it never stays where it is and never goes up, so a path keeps its components
when something is pushed to it (`components_push`). All that is known of the path of a link file
comes from there: its parts (`parts_path`) and its components (`components_path`).
-/

namespace ImageRegistry

open Files (Component component? components componentsOf IsName staysHere)

namespace Text

/-- A text is parted at the same slashes as its bytes. -/
theorem segments_flatMap_utf8EncodeChar (text : List Char) :
    segments 0x2f (text.flatMap String.utf8EncodeChar) =
      (segments '/' text).map (·.flatMap String.utf8EncodeChar) := by
  induction text with
  | nil => rfl
  | cons c rest ih =>
    rw [List.flatMap_cons, segments]
    by_cases hc : c = '/'
    · rw [if_pos hc, hc, show String.utf8EncodeChar '/' = [0x2f] from by decide,
        List.singleton_append, segments, if_pos rfl, ih]
      rfl
    · obtain ⟨first, more, hrest, hparts⟩ :=
        segments_append_of_not_mem (slash_not_mem_utf8EncodeChar hc)
          (rest.flatMap String.utf8EncodeChar)
      rw [if_neg hc, hparts]
      rw [ih] at hrest
      cases hsegments : segments '/' rest with
      | nil => exact absurd hsegments (segments_ne_nil _ rest)
      | cons part parts =>
        rw [hsegments, List.map_cons, List.cons.injEq] at hrest
        rw [← hrest.1, ← hrest.2]
        rfl

/-- Bytes are text when they are the bytes of a text. -/
theorem utf8?_eq_some_iff {bytes : ByteArray} {text : String} :
    utf8? bytes = some text ↔ bytes = text.toUTF8 := by
  rw [utf8?, String.fromUTF8?, String.toUTF8_eq_toByteArray]
  constructor
  · intro h
    split at h
    · rw [← Option.some.inj h]
      rfl
    · cases h
  · rintro rfl
    rw [dif_pos text.isValidUTF8]
    rfl

/-- Only the empty text is one empty part. -/
theorem eq_nil_of_segments {mark : Char} {text : List Char} (h : segments mark text = [[]]) :
    text = [] := by
  cases text with
  | nil => rfl
  | cons c rest =>
    rw [segments] at h
    split at h
    · exact absurd (List.cons.inj h).2 (segments_ne_nil mark rest)
    · split at h <;> cases h

end Text

namespace Link

/-! ### Parts of a text as bytes -/

/-- A part of a path, as it stands in the tree of files. -/
def encoded (part : List Char) : ByteArray := (String.ofList part).toUTF8

theorem encoded_inj {part other : List Char} : encoded part = encoded other ↔ part = other := by
  rw [encoded, encoded, String.toUTF8_eq_toByteArray, String.toUTF8_eq_toByteArray,
    String.toByteArray_inj, String.ofList_inj]

theorem encoded_toList (text : String) : encoded text.toList = text.toUTF8 := by
  rw [encoded, String.ofList_toList]

theorem parts_encoded (text : List Char) :
    Files.parts (encoded text) = (Text.segments '/' text).map encoded := by
  rw [Files.parts, encoded, Text.byteList_toUTF8, Text.segments_flatMap_utf8EncodeChar,
    List.map_map]
  refine List.map_congr_left fun part _ ↦ ?_
  rw [Function.comp_apply, ← Text.byteList_toUTF8]
  rfl

/-- What is not skipped is a name. -/
theorem isName_encoded {part : List Char} (h : isSkipped part = false) : IsName (encoded part) := by
  rw [isSkipped, Bool.or_eq_false_iff, Bool.or_eq_false_iff, decide_eq_false_iff_not,
    decide_eq_false_iff_not, decide_eq_false_iff_not] at h
  obtain ⟨⟨hempty, hhere⟩, hup⟩ := h
  refine ⟨?_, fun hsame ↦ hup (encoded_inj.1 hsame)⟩
  rw [staysHere, Bool.or_eq_false_iff, decide_eq_false_iff_not]
  refine ⟨Bool.eq_false_iff.2 fun hsame ↦ hempty (encoded_inj.1 ?_),
    fun hsame ↦ hhere (encoded_inj.1 hsame)⟩
  exact Files.isEmpty_eq_true_iff.1 hsame

theorem isName_of_mem_parts {repository : String} {part : List Char} (h : part ∈ parts repository) :
    IsName (encoded part) :=
  isName_encoded (by simpa using (List.mem_filter.1 h).2)

theorem slash_not_mem_of_mem_parts {repository : String} {part : List Char}
    (h : part ∈ parts repository) : '/' ∉ part :=
  Text.not_mem_of_mem_segments (List.mem_filter.1 h).1

theorem slash_not_mem_fileName (reference : String) : '/' ∉ fileName reference := by
  rw [fileName, List.mem_cons, not_or]
  exact ⟨by decide, slash_not_mem_escaped reference⟩

/-! ### Pushing a part -/

/-- The parts of a path in front of what is pushed to it. -/
def trunk (path : List Char) : List (List Char) :=
  if path = [] ∨ path.getLast? = some '/' then (Text.segments '/' path).dropLast
  else Text.segments '/' path

/-- A path that ends with a slash, or is empty, has an empty part at its end. -/
theorem segments_eq_trunk (path : List Char) : Text.segments '/' path = trunk path ∨
    Text.segments '/' path = trunk path ++ [[]] ∧ (path = [] ∨ path.getLast? = some '/') := by
  rw [trunk]
  split
  · next h =>
    refine Or.inr ⟨?_, h⟩
    rcases h with rfl | h
    · rfl
    · obtain ⟨front, rfl⟩ := List.getLast?_eq_some_iff.1 h
      rw [Text.segments_append]
      exact (congrArg (· ++ [[]]) List.dropLast_concat).symm
  · exact Or.inl rfl

theorem segments_push (path part : List Char) :
    Text.segments '/' (push path part) = trunk path ++ Text.segments '/' part := by
  rw [push, trunk]
  split
  · next h =>
    rcases h with rfl | h
    · rfl
    · obtain ⟨front, rfl⟩ := List.getLast?_eq_some_iff.1 h
      rw [List.append_assoc, List.singleton_append, Text.segments_append, Text.segments_append]
      exact congrArg (· ++ Text.segments '/' part) List.dropLast_concat.symm
  · rw [Text.segments_append]

theorem push_inj {path part other : List Char} (h : push path part = push path other) :
    part = other := by
  rw [push, push] at h
  split at h
  · exact List.append_cancel_left h
  · exact (List.cons.inj (List.append_cancel_left h)).2

/-- What was pushed is a part of the trunk. -/
theorem trunk_push (path : List Char) {part : List Char} (hne : part ≠ []) (hslash : '/' ∉ part) :
    trunk (push path part) = trunk path ++ [part] := by
  have hsegments := segments_push path part
  rw [Text.segments_of_not_mem hslash] at hsegments
  rcases segments_eq_trunk (push path part) with h | ⟨h, -⟩
  · rw [← h, hsegments]
  · rw [hsegments] at h
    exact absurd (List.append_inj_right' h rfl) (by simpa using hne)

/-! ### Parts and components of a link file -/

section

variable {pushed : List (List Char)}

theorem trunk_foldl_push (path : List Char) (h : ∀ part ∈ pushed, part ≠ [] ∧ '/' ∉ part) :
    trunk (pushed.foldl push path) = trunk path ++ pushed := by
  induction pushed generalizing path with
  | nil => rw [List.foldl_nil, List.append_nil]
  | cons first rest ih =>
    obtain ⟨hne, hslash⟩ := h first List.mem_cons_self
    rw [List.foldl_cons, ih _ fun part hpart ↦ h part (List.mem_cons_of_mem first hpart),
      trunk_push path hne hslash, List.append_assoc, List.singleton_append]

end

theorem ne_nil_of_mem_parts {repository : String} {part : List Char} (h : part ∈ parts repository) :
    part ≠ [] := by
  rintro rfl
  cases (isName_of_mem_parts h).1

theorem trunk_directory (root repository : String) :
    trunk (directory root repository).toList = trunk root.toList ++ parts repository := by
  rw [directory, String.toList_ofList]
  exact trunk_foldl_push _ fun part hpart ↦
    ⟨ne_nil_of_mem_parts hpart, slash_not_mem_of_mem_parts hpart⟩

/-- The parts of the path of a link file. -/
theorem parts_path (root repository reference : String) :
    Files.parts (path root repository reference).toUTF8 =
      (trunk root.toList ++ parts repository).map encoded ++ [nameOf reference] := by
  rw [path, ← encoded, parts_encoded, segments_push, trunk_directory,
    Text.segments_of_not_mem (slash_not_mem_fileName reference), List.map_append]
  rfl

/-- The parts of the directory of a repository that has parts. -/
theorem parts_directory (root : String) {repository : String} (h : parts repository ≠ []) :
    Files.parts (directory root repository).toUTF8 =
      (trunk root.toList ++ parts repository).map encoded := by
  obtain ⟨front, last, hparts⟩ : ∃ front last, parts repository = front ++ [last] :=
    ⟨_, _, (List.dropLast_concat_getLast h).symm⟩
  have hlast : last ∈ parts repository := by
    rw [hparts]
    exact List.mem_append_right front List.mem_cons_self
  have hfront : ∀ part ∈ front, part ≠ [] ∧ '/' ∉ part := fun part hpart ↦ by
    have hmem : part ∈ parts repository := by
      rw [hparts]
      exact List.mem_append_left [last] hpart
    exact ⟨ne_nil_of_mem_parts hmem, slash_not_mem_of_mem_parts hmem⟩
  rw [directory, ← encoded, parts_encoded, hparts, List.foldl_append, List.foldl_cons,
    List.foldl_nil, segments_push, trunk_foldl_push _ hfront,
    Text.segments_of_not_mem (slash_not_mem_of_mem_parts hlast), List.append_assoc]

/-- What is pushed comes behind the components of the path, unless it stays where it is. -/
theorem components_push (path : List Char) {part : List Char}
    (h : ∀ first ∈ (Text.segments '/' part).head?, staysHere (encoded first) = false) :
    components (encoded (push path part)) = components (encoded path) ++
      ((Text.segments '/' part).map encoded).filterMap component? := by
  obtain ⟨first, rest, hpart⟩ := List.exists_cons_of_ne_nil (Text.segments_ne_nil '/' part)
  rw [hpart] at h
  rw [components, components, parts_encoded, parts_encoded, segments_push, hpart, List.map_append]
  have hne : (first :: rest).map encoded ≠ [] := List.cons_ne_nil _ _
  rcases segments_eq_trunk path with hpath | ⟨hpath, hends⟩
  · rw [← hpath]
    refine Files.componentsOf_append ?_ fun hempty ↦ ?_
    · exact fun hnil ↦ Text.segments_ne_nil '/' path (List.map_eq_nil_iff.1 hnil)
    · -- The empty path alone is one empty part, and its trunk has none.
      have hone : Text.segments '/' path = [[]] :=
        (List.map_inj_right fun _ _ ↦ encoded_inj.1).1 hempty
      rw [Text.eq_nil_of_segments hone] at hpath
      cases hpath
  · rw [hpath, List.map_append]
    by_cases hnil : trunk path = []
    · rw [hnil]
      refine Files.componentsOf_of_not_staysHere ?_
      rintro _ ⟨⟩
      exact h first rfl
    · exact Files.componentsOf_append_empty (fun h ↦ hnil (List.map_eq_nil_iff.1 h)) hne

theorem components_push_of_isName (path : List Char) {part : List Char}
    (hname : IsName (encoded part)) (hslash : '/' ∉ part) :
    components (encoded (push path part)) =
      components (encoded path) ++ [.name (encoded part)] := by
  have hsegments := Text.segments_of_not_mem hslash
  have hfirst : ∀ first ∈ (Text.segments '/' part).head?, staysHere (encoded first) = false := by
    rw [hsegments]
    rintro _ ⟨⟩
    exact hname.1
  rw [components_push path hfirst, hsegments, List.map_singleton,
    List.filterMap_cons_some (Files.component?_of_isName hname)]
  rfl

theorem components_foldl_push (path : List Char) {pushed : List (List Char)}
    (h : ∀ part ∈ pushed, IsName (encoded part) ∧ '/' ∉ part) :
    components (encoded (pushed.foldl push path)) =
      components (encoded path) ++ pushed.map fun part ↦ .name (encoded part) := by
  induction pushed generalizing path with
  | nil => rw [List.foldl_nil, List.map_nil, List.append_nil]
  | cons first rest ih =>
    obtain ⟨hname, hslash⟩ := h first List.mem_cons_self
    rw [List.foldl_cons, ih _ fun part hpart ↦ h part (List.mem_cons_of_mem first hpart),
      components_push_of_isName path hname hslash, List.append_assoc]
    rfl

theorem components_directory (root repository : String) :
    components (directory root repository).toUTF8 =
      components root.toUTF8 ++ (parts repository).map fun part ↦ .name (encoded part) := by
  rw [directory, ← encoded, components_foldl_push, encoded_toList]
  exact fun part hpart ↦ ⟨isName_of_mem_parts hpart, slash_not_mem_of_mem_parts hpart⟩

/-- The components of the path of a link file. -/
theorem components_path (root repository reference : String) :
    components (path root repository reference).toUTF8 = components root.toUTF8 ++
      (parts repository ++ [fileName reference]).map fun part ↦ .name (encoded part) := by
  have hname : IsName (encoded (fileName reference)) := isName_nameOf reference
  rw [path, ← encoded, components_push_of_isName _ hname (slash_not_mem_fileName reference),
    encoded_toList, components_directory, List.append_assoc, List.map_append]
  rfl

theorem fileName_inj {reference other : String} :
    fileName reference = fileName other ↔ escaped reference = escaped other := by
  rw [fileName, fileName, List.cons.injEq]
  exact and_iff_right rfl

/-- What comes behind the root tells the parts of the repository and the escaped reference. -/
theorem append_fileName_inj {r f s g : String} :
    parts r ++ [fileName f] = parts s ++ [fileName g] ↔
      parts r = parts s ∧ escaped f = escaped g := by
  rw [← fileName_inj]
  constructor
  · intro h
    obtain ⟨hparts, hname⟩ := List.append_inj' h rfl
    exact ⟨hparts, (List.cons.inj hname).1⟩
  · rintro ⟨hparts, hname⟩
    rw [hparts, hname]

/-! ### Link files of a directory -/

/-- A file is a link file of a directory if its name begins with the mark and is text. -/
theorem linkFile?_eq_some_iff {directory file : String} {name : ByteArray} {node : Files.Node} :
    Resolver.linkFile? directory (name, node) = some file ↔
      ∃ (content : ByteArray) (text : String), node = .file content ∧ name = text.toUTF8 ∧
        (Text.byteList name).head? = some 0x40 ∧
        file = String.ofList (push directory.toList text.toList) := by
  cases node with
  | directory | link => simp [Resolver.linkFile?]
  | file content =>
    rw [Resolver.linkFile?]
    split
    · next hmark =>
      rw [Option.map_eq_some_iff]
      constructor
      · rintro ⟨text, htext, rfl⟩
        exact ⟨content, text, rfl, Text.utf8?_eq_some_iff.1 htext, hmark, rfl⟩
      · rintro ⟨_, text, -, htext, -, rfl⟩
        exact ⟨text, Text.utf8?_eq_some_iff.2 htext, rfl⟩
    · next hmark =>
      constructor
      · intro h
        cases h
      · rintro ⟨_, _, -, -, h, -⟩
        exact absurd h hmark

end Link

end ImageRegistry
