import ImageRegistry.Link.Path
import ImageRegistry.Proofs.Files.Spare

/-!
# The names of link files

However the root and the repository are written, the path of a link file ends with the name of the
file (`getLast?_parts_path`): the escaped reference has no slash, so as bytes it is one part, and
the mark at its beginning keeps it from being a part that stays or goes up. Two references of a
repository share a link file only if they are escaped alike (`nameOf_inj`).
-/

namespace ImageRegistry

/-! ### The last part of a text -/

namespace Text

universe u

variable {α : Type u} [DecidableEq α]

/-- What stands behind the last mark is the last part, and not the only one. -/
theorem exists_segments_append {mark : α} {last : List α} (h : mark ∉ last) (before : List α) :
    ∃ first front, segments mark (before ++ mark :: last) = first :: front ++ [last] := by
  rw [segments_append, segments_of_not_mem h]
  cases hbefore : segments mark before with
  | nil => exact absurd hbefore (segments_ne_nil mark before)
  | cons first front => exact ⟨first, front, rfl⟩

/-- The bytes of a text. -/
theorem byteList_toUTF8 (text : List Char) :
    byteList (String.ofList text).toUTF8 = text.flatMap String.utf8EncodeChar := by
  rw [String.toUTF8_eq_toByteArray, String.toByteArray_ofList, List.utf8Encode, byteList]
  simp

/-- Only a slash is written with the byte of a slash. -/
theorem slash_not_mem_utf8EncodeChar {c : Char} (h : c ≠ '/') :
    0x2f ∉ String.utf8EncodeChar c := by
  have hcode : c.val.toNat ≠ 47 := fun hc ↦ h (Char.toNat_inj.1 hc)
  have hbyte {n : Nat} (hn : n % 256 ≠ 47) : (0x2f : UInt8) ≠ UInt8.ofNat n := fun hsame ↦
    hn (by simpa using (congrArg UInt8.toNat hsame).symm)
  -- A slash is a byte of its own; the bytes of a longer form have their highest bit set.
  rw [String.utf8EncodeChar]
  split
  · rw [List.mem_singleton]
    exact hbyte (by omega)
  · split
    · rw [List.mem_cons, List.mem_singleton, not_or]
      exact ⟨hbyte (by omega), hbyte (by omega)⟩
    · split
      · rw [List.mem_cons, List.mem_cons, List.mem_singleton, not_or, not_or]
        exact ⟨hbyte (by omega), hbyte (by omega), hbyte (by omega)⟩
      · rw [List.mem_cons, List.mem_cons, List.mem_cons, List.mem_singleton, not_or, not_or, not_or]
        exact ⟨hbyte (by omega), hbyte (by omega), hbyte (by omega), hbyte (by omega)⟩

end Text

namespace Link

theorem slash_not_mem_escaped (reference : String) : '/' ∉ escaped reference := by
  rw [escaped, List.mem_flatMap]
  rintro ⟨c, -, hc⟩
  split at hc
  · revert hc
    decide
  · next hne => exact hne (List.mem_singleton.1 hc).symm

/-- A reference without a slash is its own escaped form. -/
theorem escaped_of_not_mem {reference : String} (h : '/' ∉ reference.toList) :
    escaped reference = reference.toList := by
  rw [escaped]
  generalize reference.toList = l at h ⊢
  induction l with
  | nil => rfl
  | cons c rest ih =>
    rw [List.mem_cons, not_or] at h
    rw [List.flatMap_cons, if_neg (Ne.symm h.1), ih h.2]
    rfl

/-- The name of the link file of a reference, as it stands in the tree of files. -/
def nameOf (reference : String) : ByteArray := (String.ofList (fileName reference)).toUTF8

theorem nameOf_inj {reference other : String} :
    nameOf reference = nameOf other ↔ fileName reference = fileName other := by
  rw [nameOf, nameOf, String.toUTF8_eq_toByteArray, String.toUTF8_eq_toByteArray,
    String.toByteArray_inj, String.ofList_inj]

theorem byteList_nameOf (reference : String) : Text.byteList (nameOf reference) =
    0x40 :: (escaped reference).flatMap String.utf8EncodeChar := by
  rw [nameOf, Text.byteList_toUTF8, fileName]
  rfl

theorem isName_nameOf (reference : String) : Files.IsName (nameOf reference) := by
  have hne (other : ByteArray) (h : (Text.byteList other).head? ≠ some 0x40) :
      nameOf reference ≠ other := by
    rintro rfl
    rw [byteList_nameOf] at h
    exact h rfl
  have hempty : (nameOf reference).isEmpty = false := by
    have hlength : (Text.byteList (nameOf reference)).length = (nameOf reference).size :=
      Array.length_toList
    rw [byteList_nameOf, List.length_cons] at hlength
    rw [ByteArray.isEmpty, beq_eq_false_iff_ne]
    omega
  refine ⟨?_, hne Files.up (by decide)⟩
  rw [Files.staysHere, Bool.or_eq_false_iff, decide_eq_false_iff_not]
  exact ⟨hempty, hne Files.here (by decide)⟩

/-- The path of a link file ends with the name of the file. -/
theorem getLast?_parts_path (root repository reference : String) :
    (Files.parts (path root repository reference).toUTF8).getLast? = some (nameOf reference) := by
  have hslash : 0x2f ∉ (fileName reference).flatMap String.utf8EncodeChar := by
    rw [List.mem_flatMap]
    rintro ⟨c, hc, hbyte⟩
    refine Text.slash_not_mem_utf8EncodeChar ?_ hbyte
    rintro rfl
    rcases List.mem_cons.1 hc with hmark | hc
    · revert hmark
      decide
    · exact slash_not_mem_escaped reference hc
  have hbehind (before : List UInt8) : (Text.segments 0x2f (before ++
      ('/' :: fileName reference).flatMap String.utf8EncodeChar)).getLast? =
        some ((fileName reference).flatMap String.utf8EncodeChar) := by
    obtain ⟨first, front, hfront⟩ := Text.exists_segments_append hslash before
    rw [List.flatMap_cons, show String.utf8EncodeChar '/' = [0x2f] from by decide,
      List.singleton_append, hfront]
    exact List.getLast?_concat
  have hlast : (Text.segments 0x2f
      (Text.byteList (path root repository reference).toUTF8)).getLast? =
        some ((fileName reference).flatMap String.utf8EncodeChar) := by
    rw [path, Text.byteList_toUTF8, push]
    generalize (directory root repository).toList = before
    split
    · next h =>
      rcases h with rfl | h
      · rw [List.nil_append, Text.segments_of_not_mem hslash]
        rfl
      · -- The directory ends with a slash already.
        obtain ⟨front, rfl⟩ := List.getLast?_eq_some_iff.1 h
        rw [List.append_assoc, List.flatMap_append]
        exact hbehind _
    · rw [List.flatMap_append]
      exact hbehind _
  rw [Files.parts, List.getLast?_map, hlast, ← Text.byteList_toUTF8]
  rfl

end Link

end ImageRegistry
