import ImageRegistry.Digest.Hasher
import ImageRegistry.Text.Percent
import ImageRegistry.Text.Split

/-!
# Digests

Content is named by the digest of its bytes, `sha256:` and the 64 small hexadecimal digits of the
hash. A reference has the shape of a digest when it is an algorithm, a colon and an encoded part,
neither of them empty; a tag never has a colon.
-/

namespace ImageRegistry.Digest

/-- The two hexadecimal digits of a byte. -/
def byteHex (b : UInt8) : List Char :=
  [Char.ofNat (Text.smallHexDigit (b / 16)).toNat, Char.ofNat (Text.smallHexDigit (b % 16)).toNat]

/-- The hexadecimal digits of a list of bytes. -/
def hexText (bytes : List UInt8) : List Char := bytes.flatMap byteHex

/-- The hash of some content in hexadecimal digits. -/
def hashHex (content : ByteArray) : String :=
  String.ofList (hexText (Sha256.hash (Text.byteList content)))

/-- The digest of some content. -/
def ofContent (content : ByteArray) : String := "sha256:" ++ hashHex content

/-- The hasher after one more chunk. -/
def feedChunk (h : Sha256.Hasher) (chunk : ByteArray) : Sha256.Hasher :=
  h.feed (Text.byteList chunk)

/-- The digest of the content that chunks make, which are hashed one after the other. -/
def ofChunks (chunks : List ByteArray) : String :=
  "sha256:" ++ String.ofList (hexText (chunks.foldl feedChunk Sha256.Hasher.start).finish)

/-- The content that chunks make when they are put together. -/
def join (chunks : List ByteArray) : ByteArray := chunks.foldl (· ++ ·) ByteArray.empty

/-- Whether a reference is an algorithm, a colon and an encoded part. -/
def isDigest (reference : String) : Bool :=
  match Text.splitFirst ':' reference.toList with
  | some (algorithm, encoded) => !algorithm.isEmpty && !encoded.isEmpty
  | none => false

/-! ### Laws -/

/-- A value below sixteen is written with a small hexadecimal digit. -/
theorem hexChar_mem {v : UInt8} (h : v < 16) :
    Char.ofNat (Text.smallHexDigit v).toNat ∈ "0123456789abcdef".toList :=
  Text.forall_digit
    (P := fun v ↦ Char.ofNat (Text.smallHexDigit v).toNat ∈ "0123456789abcdef".toList)
    (by decide) v h

/-- A byte is written with two small hexadecimal digits. -/
theorem mem_of_mem_byteHex {b : UInt8} {c : Char} (h : c ∈ byteHex b) :
    c ∈ "0123456789abcdef".toList := by
  rcases List.mem_cons.1 h with rfl | h
  · exact hexChar_mem (Text.div_sixteen_lt b)
  · rw [List.mem_singleton.1 h]
    exact hexChar_mem (Text.mod_sixteen_lt b)

theorem length_hexText (bytes : List UInt8) : (hexText bytes).length = 2 * bytes.length := by
  induction bytes with
  | nil => rfl
  | cons b rest ih =>
    simp only [hexText, List.flatMap_cons, List.length_append, List.length_cons] at ih ⊢
    rw [ih]
    simp only [byteHex, List.length_cons, List.length_nil]
    omega

/-- The hash is written with 64 digits. -/
theorem length_hashHex (content : ByteArray) : (hashHex content).toList.length = 64 := by
  rw [hashHex, String.toList_ofList, length_hexText, Sha256.length_hash]

/-- All of them are small hexadecimal digits. -/
theorem mem_hashHex {content : ByteArray} {c : Char} (h : c ∈ (hashHex content).toList) :
    c ∈ "0123456789abcdef".toList := by
  rw [hashHex, String.toList_ofList, hexText, List.mem_flatMap] at h
  obtain ⟨b, -, hb⟩ := h
  exact mem_of_mem_byteHex hb

theorem toList_ofContent (content : ByteArray) :
    (ofContent content).toList = "sha256:".toList ++ (hashHex content).toList := by
  rw [ofContent, String.toList_append]

/-- A reference has the shape of a digest exactly when it is two parts that are not empty with a
colon between them, the first one without a colon. -/
theorem isDigest_iff {reference : String} :
    isDigest reference = true ↔ ∃ algorithm encoded : List Char,
      reference.toList = algorithm ++ ':' :: encoded ∧ ':' ∉ algorithm ∧
        algorithm ≠ [] ∧ encoded ≠ [] := by
  unfold isDigest
  cases h : Text.splitFirst ':' reference.toList with
  | none =>
    rw [Text.splitFirst_eq_none_iff] at h
    simp only [Bool.false_eq_true, false_iff, not_exists, not_and]
    intro a e hae
    exact absurd (hae ▸ List.mem_append_right a List.mem_cons_self) h
  | some p =>
    obtain ⟨a, e⟩ := p
    obtain ⟨h1, h2⟩ := Text.splitFirst_eq_some_iff.1 h
    simp only [Bool.and_eq_true, Bool.not_eq_true', List.isEmpty_eq_false_iff]
    constructor
    · rintro ⟨ha, he⟩; exact ⟨a, e, h1, h2, ha, he⟩
    · rintro ⟨a', e', h1', h2', ha, he⟩
      have := Text.splitFirst_eq_some_iff.2 ⟨h1', h2'⟩
      rw [h, Option.some.injEq, Prod.mk.injEq] at this
      rw [this.1, this.2]; exact ⟨ha, he⟩

/-- A digest has the shape of a digest. -/
theorem isDigest_ofContent (content : ByteArray) : isDigest (ofContent content) = true := by
  refine isDigest_iff.2 ⟨"sha256".toList, (hashHex content).toList, ?_, by decide, by decide, ?_⟩
  · rw [toList_ofContent]; rfl
  · intro h
    have := length_hashHex content
    rw [h] at this; cases this

@[simp] theorem join_nil : join [] = ByteArray.empty := rfl

private theorem foldl_append (acc : ByteArray) (chunks : List ByteArray) :
    chunks.foldl (· ++ ·) acc = acc ++ chunks.foldl (· ++ ·) ByteArray.empty := by
  induction chunks generalizing acc with
  | nil => simp
  | cons c rest ih =>
    rw [List.foldl_cons, List.foldl_cons, ih, ih (ByteArray.empty ++ c)]
    simp [ByteArray.append_assoc]

@[simp] theorem join_cons (chunk : ByteArray) (rest : List ByteArray) :
    join (chunk :: rest) = chunk ++ join rest := by
  rw [join, List.foldl_cons, foldl_append]; simp [join]

/-- Chunks put together in two parts make the content of the parts. -/
theorem join_append (l m : List ByteArray) : join (l ++ m) = join l ++ join m := by
  induction l with
  | nil => simp
  | cons c rest ih => simp [ih, ByteArray.append_assoc]

@[simp] theorem byteList_append (a b : ByteArray) :
    Text.byteList (a ++ b) = Text.byteList a ++ Text.byteList b := by
  simp [Text.byteList]

theorem byteList_join (chunks : List ByteArray) :
    Text.byteList (join chunks) = (chunks.map Text.byteList).flatten := by
  induction chunks with
  | nil => rfl
  | cons c rest ih => rw [join_cons, byteList_append, ih, List.map_cons, List.flatten_cons]

/-- Hashing the chunks one after the other gives the digest of the content that they make. -/
theorem ofChunks_eq (chunks : List ByteArray) : ofChunks chunks = ofContent (join chunks) := by
  have hfold : chunks.foldl feedChunk Sha256.Hasher.start =
      (chunks.map Text.byteList).foldl Sha256.Hasher.feed Sha256.Hasher.start := by
    rw [List.foldl_map]
    rfl
  rw [ofChunks, hfold, Sha256.Hasher.finish_foldl_feed, ← byteList_join]
  rfl

end ImageRegistry.Digest
