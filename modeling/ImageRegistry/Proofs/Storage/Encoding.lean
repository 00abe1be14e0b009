import ImageRegistry.Proofs.Storage.Run

/-!
# The bytes that name a node

A node is named by a hash, so two nodes can only be told apart by the bytes that are hashed. Those
of a file and those of a directory never are the same. The entries of a directory stand one after
the other, each of them a name, a NUL, an identifier and the end of a line, and nothing keeps a name
from holding such an end itself. For names that hold none (`IsPlain`) the bytes are read in one way
only: if one of two names goes on where the other one ends, then the end of the shorter entry lies
within the longer name, as no NUL stands within an identifier (`eq_nil_of_mark`).
-/

namespace ImageRegistry

/-! ### Names before marks -/

namespace Text

variable {α : Type} {mark : α}

/-- A text before a mark in which the tail of another mark stands complete holds that mark, if the
mark begins with a sign that its tail does not hold. -/
theorem eq_nil_of_mark {tail x rest more : List α} (htail : mark ∉ tail)
    (hx : ¬ mark :: tail <:+: x) (h : mark :: tail ++ rest = x ++ mark :: more) : x = [] := by
  cases x with
  | nil => rfl
  | cons c y =>
    obtain ⟨rfl, hrest⟩ := List.cons.inj h
    rcases List.append_eq_append_iff.1 hrest with ⟨z, rfl, -⟩ | ⟨z, rfl, hz⟩
    · exact absurd (List.prefix_append (mark :: tail) z).isInfix hx
    · cases z with
      | nil =>
        rw [List.append_nil] at hx
        exact absurd List.infix_rfl hx
      | cons d z =>
        obtain ⟨rfl, -⟩ := List.cons.inj hz
        exact absurd (List.mem_append_right y List.mem_cons_self) htail

/-- So two texts before marks are one text, and what comes behind the signs is the same. -/
theorem eq_of_mark {name other tail tail' rest rest' : List α} (htail : mark ∉ tail)
    (htail' : mark ∉ tail') (hname : ¬ mark :: tail' <:+: name)
    (hother : ¬ mark :: tail <:+: other)
    (h : name ++ (mark :: tail ++ rest) = other ++ (mark :: tail' ++ rest')) :
    name = other ∧ tail ++ rest = tail' ++ rest' := by
  rcases List.append_eq_append_iff.1 h with ⟨x, rfl, hx⟩ | ⟨x, rfl, hx⟩
  · have hnot : ¬ mark :: tail <:+: x := fun hin ↦
      hother (hin.trans (List.suffix_append name x).isInfix)
    obtain rfl := eq_nil_of_mark htail hnot hx
    exact ⟨(List.append_nil name).symm, (List.cons.inj hx).2⟩
  · have hnot : ¬ mark :: tail' <:+: x := fun hin ↦
      hname (hin.trans (List.suffix_append other x).isInfix)
    obtain rfl := eq_nil_of_mark htail' hnot hx
    exact ⟨List.append_nil other, (List.cons.inj hx).2.symm⟩

end Text

namespace Storage.Memory

/-! ### Entries -/

/-- The characters with which an entry ends, behind its name. -/
def entryEnd (id : String) : List Char := '\x00' :: (id.toList ++ ['\n'])

/-- A name in which no entry ends. -/
def IsPlain (name : String) : Prop := ∀ node : Node, ¬ entryEnd node.id <:+: name.toList

/-- A node with names in which no entry ends. -/
def Node.IsPlain : Node → Prop
  | file _ => True
  | directory children => ∀ c ∈ children, Memory.IsPlain c.1

/-- A node whose children go by identifiers of nodes. -/
def Node.IsNamed : Node → Prop
  | file _ => True
  | directory children => ∀ c ∈ children, ∃ child : Node, c.2 = child.id

/-- A name without a NUL is plain. -/
theorem isPlain_of_not_mem {name : String} (h : '\x00' ∉ name.toList) : IsPlain name :=
  fun _ hin ↦ h (hin.subset List.mem_cons_self)

/-- The characters of an entry. -/
def entryText (c : String × String) : List Char := c.1.toList ++ entryEnd c.2

theorem nul_not_mem_id (node : Node) : '\x00' ∉ node.id.toList ++ ['\n'] := by
  rw [List.mem_append, not_or]
  refine ⟨fun h ↦ ?_, by decide⟩
  have hdigit := Digest.mem_hashHex h
  revert hdigit
  decide

/-- Entries one after the other are read in one way only. -/
theorem flatMap_entryText_inj {children others : List (String × String)}
    (hplain : (Node.directory children).IsPlain) (hplain' : (Node.directory others).IsPlain)
    (hnamed : (Node.directory children).IsNamed) (hnamed' : (Node.directory others).IsNamed)
    (h : children.flatMap entryText = others.flatMap entryText) : children = others := by
  have hends (c : String × String) (rest : List (String × String)) :
      (c :: rest).flatMap entryText ≠ [] := by simp [entryText, entryEnd]
  induction children generalizing others with
  | nil =>
    cases others with
    | nil => rfl
    | cons d more => exact absurd h.symm (hends d more)
  | cons c rest ih =>
    cases others with
    | nil => exact absurd h (hends c rest)
    | cons d more =>
      obtain ⟨child, hchild⟩ := hnamed c List.mem_cons_self
      obtain ⟨other, hother⟩ := hnamed' d List.mem_cons_self
      rw [List.flatMap_cons, List.flatMap_cons, entryText, entryText, List.append_assoc,
        List.append_assoc, hchild, hother] at h
      obtain ⟨hname, hrest⟩ := Text.eq_of_mark (nul_not_mem_id child) (nul_not_mem_id other)
        (hplain c List.mem_cons_self other) (hplain' d List.mem_cons_self child) h
      -- Identifiers are of one length, so the ends of the two entries are one.
      have hlength : (child.id.toList ++ ['\n']).length = (other.id.toList ++ ['\n']).length := by
        rw [List.length_append, List.length_append, Node.id, Node.id, Digest.length_hashHex,
          Digest.length_hashHex]
      obtain ⟨hid, hrest⟩ := List.append_inj hrest hlength
      have hc : c = d := by
        refine Prod.ext (String.toList_inj.1 hname) ?_
        rw [hchild, hother]
        exact String.toList_inj.1 (List.append_cancel_right hid)
      rw [hc, ih (fun e he ↦ hplain e (List.mem_cons_of_mem c he))
        (fun e he ↦ hplain' e (List.mem_cons_of_mem d he))
        (fun e he ↦ hnamed e (List.mem_cons_of_mem c he))
        (fun e he ↦ hnamed' e (List.mem_cons_of_mem d he)) hrest]

/-! ### Whole nodes -/

/-- The bytes of a directory are those of a text. -/
theorem directoryText_eq (children : List (String × String)) :
    directoryText children =
      (String.ofList ("directory\x00".toList ++ children.flatMap entryText)).toByteArray := by
  have hfoldl (text : List Char) : children.foldl
      (fun bytes c ↦ bytes ++ c.1.toUTF8 ++ "\x00".toUTF8 ++ c.2.toUTF8 ++ "\n".toUTF8)
      (String.ofList text).toByteArray =
        (String.ofList (text ++ children.flatMap entryText)).toByteArray := by
    induction children generalizing text with
    | nil => rw [List.foldl_nil, List.flatMap_nil, List.append_nil]
    | cons c rest ih =>
      have hentry : (String.ofList text).toByteArray ++ c.1.toUTF8 ++ "\x00".toUTF8 ++
          c.2.toUTF8 ++ "\n".toUTF8 = (String.ofList (text ++ entryText c)).toByteArray := by
        simp only [String.toUTF8_eq_toByteArray, ← String.toByteArray_append]
        refine congrArg String.toByteArray (String.toList_inj.1 ?_)
        simp [entryText, entryEnd]
      rw [List.foldl_cons, hentry, ih, List.flatMap_cons, List.append_assoc]
  exact hfoldl "directory\x00".toList

/-- A directory and a file are never named by the same bytes. -/
theorem fileText_ne_directoryText (content : ByteArray) (children : List (String × String)) :
    fileText content ≠ directoryText children := by
  intro h
  have hfile : (Text.byteList (fileText content)).head? = some 0x66 := by
    rw [fileText, Digest.byteList_append, List.head?_append]
    rfl
  have hdirectory : (Text.byteList (directoryText children)).head? = some 0x64 := by
    rw [directoryText_eq, String.ofList_append, String.toByteArray_append, Digest.byteList_append,
      List.head?_append]
    rfl
  rw [h, hdirectory] at hfile
  cases hfile

/-- Two plain nodes that are named by the same bytes are one node. -/
theorem Node.text_inj {a b : Node} (ha : a.IsPlain) (hb : b.IsPlain) (hnamed : a.IsNamed)
    (hnamed' : b.IsNamed) (h : a.text = b.text) : a = b := by
  cases a with
  | file content =>
    cases b with
    | file other =>
      have hbytes := congrArg Text.byteList h
      rw [text, text, fileText, fileText, Digest.byteList_append, Digest.byteList_append] at hbytes
      have hsame := congrArg Text.bytesOf (List.append_cancel_left hbytes)
      rw [Text.bytesOf_byteList, Text.bytesOf_byteList] at hsame
      rw [hsame]
    | directory others => exact absurd h (fileText_ne_directoryText content others)
  | directory children =>
    cases b with
    | file other => exact absurd h.symm (fileText_ne_directoryText other children)
    | directory others =>
      rw [text, text, directoryText_eq, directoryText_eq, String.toByteArray_inj,
        String.ofList_inj] at h
      rw [flatMap_entryText_inj ha hb hnamed hnamed' (List.append_cancel_left h)]

end Storage.Memory

end ImageRegistry
