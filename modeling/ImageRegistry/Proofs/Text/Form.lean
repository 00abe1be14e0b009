import ImageRegistry.Proofs.Link.Path
import ImageRegistry.Text.Form

/-!
# What is written as a form reads back

Bytes that are text are read as this text, and nothing is replaced (`decodeLossy_byteList_toUTF8`),
because each character is read from the bytes that it is written with, whatever comes after them
(`decodeLossy_utf8EncodeChar_append`): by the number of these bytes, and by the range that the first
one gives for the second. So the value of a pair reads back if all that has a meaning of its own is
escaped (`formPairs_percentEncode`), and the bytes that are not escaped need not be the same for all
who write.
-/

namespace ImageRegistry.Text

/-! ### Forms of characters -/

section Forms

variable {a b c d : UInt8} (rest : List UInt8)

theorem decodeLossy_one (ha : a.toNat < 128) :
    decodeLossy (a :: rest) = Char.ofNat a.toNat :: decodeLossy rest := by
  rw [decodeLossy.eq_def]
  simp only
  rw [if_pos (UInt8.lt_iff_toNat_lt.2 ha)]

/-- The first byte of a longer form is none of those that stand alone. -/
theorem leads_of_toNat (ha : 194 ≤ a.toNat) (ha' : a.toNat ≤ 244) :
    ¬ a < 0x80 ∧ ¬ (a < 0xc2 ∨ 0xf4 < a) := by
  have h80 : (0x80 : UInt8).toNat = 128 := rfl
  have hc2 : (0xc2 : UInt8).toNat = 194 := rfl
  have hf4 : (0xf4 : UInt8).toNat = 244 := rfl
  simp only [UInt8.lt_iff_toNat_lt, h80, hc2, hf4]
  omega

theorem decodeLossy_two (ha : 194 ≤ a.toNat) (ha' : a.toNat < 224) (hb : isContinuation b = true) :
    decodeLossy (a :: b :: rest) =
      Char.ofNat (a.toNat % 32 * 64 + payload b) :: decodeLossy rest := by
  obtain ⟨halone, hnone⟩ := leads_of_toNat ha (by omega)
  have htwo : a < 0xe0 := UInt8.lt_iff_toNat_lt.2 ha'
  rw [decodeLossy.eq_def]
  simp only
  rw [if_neg halone, if_neg hnone, if_pos htwo, if_pos hb]

theorem decodeLossy_three (ha : 224 ≤ a.toNat) (ha' : a.toNat < 240)
    (hb : ¬ (b < (secondRange a).1 ∨ (secondRange a).2 < b)) (hc : isContinuation c = true) :
    decodeLossy (a :: b :: c :: rest) =
      Char.ofNat ((a.toNat % 16 * 64 + payload b) * 64 + payload c) :: decodeLossy rest := by
  obtain ⟨halone, hnone⟩ := leads_of_toNat (a := a) (by omega) (by omega)
  have htwo : ¬ a < 0xe0 := fun h ↦ Nat.not_lt.2 ha (UInt8.lt_iff_toNat_lt.1 h)
  have hthree : a < 0xf0 := UInt8.lt_iff_toNat_lt.2 ha'
  rw [decodeLossy.eq_def]
  simp only
  rw [if_neg halone, if_neg hnone, if_neg htwo, if_neg hb, if_neg (by simp [hc]), if_pos hthree]

theorem decodeLossy_four (ha : 240 ≤ a.toNat) (ha' : a.toNat ≤ 244)
    (hb : ¬ (b < (secondRange a).1 ∨ (secondRange a).2 < b)) (hc : isContinuation c = true)
    (hd : isContinuation d = true) :
    decodeLossy (a :: b :: c :: d :: rest) =
      Char.ofNat (((a.toNat % 8 * 64 + payload b) * 64 + payload c) * 64 + payload d) ::
        decodeLossy rest := by
  obtain ⟨halone, hnone⟩ := leads_of_toNat (a := a) (by omega) ha'
  have hthree : ¬ a < 0xf0 := fun h ↦ Nat.not_lt.2 ha (UInt8.lt_iff_toNat_lt.1 h)
  have htwo : ¬ a < 0xe0 := fun h ↦ hthree (UInt8.lt_trans h (by decide))
  rw [decodeLossy.eq_def]
  simp only
  rw [if_neg halone, if_neg hnone, if_neg htwo, if_neg hb, if_neg (by simp [hc]), if_neg hthree,
    if_pos hd]

end Forms

theorem toNat_ofNat_of_lt {n : Nat} (h : n < 256) : (UInt8.ofNat n).toNat = n := by
  rw [UInt8.toNat_ofNat']
  exact Nat.mod_eq_of_lt h

theorem payload_ofNat {n : Nat} (h : n < 64) : payload (UInt8.ofNat (n + 128)) = n := by
  rw [payload, toNat_ofNat_of_lt (by omega)]
  omega

theorem isContinuation_ofNat {n : Nat} (h : n < 64) :
    isContinuation (UInt8.ofNat (n + 128)) = true := by
  have h80 : (0x80 : UInt8).toNat = 128 := rfl
  have hbf : (0xbf : UInt8).toNat = 191 := rfl
  rw [isContinuation, Bool.and_eq_true, decide_eq_true_eq, decide_eq_true_eq,
    UInt8.le_iff_toNat_le, UInt8.le_iff_toNat_le, toNat_ofNat_of_lt (by omega), h80, hbf]
  omega

/-- The second byte of a character lies in the range that its first byte gives, if the form is not
too long, and the character is no surrogate and does not lie above the last one. -/
theorem not_outside_secondRange {first second : Nat} (hfirst : first < 256) (hsecond : second < 64)
    (he0 : first = 224 → 32 ≤ second) (hed : first = 237 → second < 32)
    (hf0 : first = 240 → 16 ≤ second) (hf4 : first = 244 → second < 16) :
    ¬ (UInt8.ofNat (second + 128) < (secondRange (UInt8.ofNat first)).1 ∨
      (secondRange (UInt8.ofNat first)).2 < UInt8.ofNat (second + 128)) := by
  have hbyte := toNat_ofNat_of_lt (show second + 128 < 256 by omega)
  have hwithin {low high : UInt8} (hlow : low.toNat ≤ second + 128)
      (hhigh : second + 128 ≤ high.toNat) :
      ¬ (UInt8.ofNat (second + 128) < low ∨ high < UInt8.ofNat (second + 128)) := by
    rw [UInt8.lt_iff_toNat_lt, UInt8.lt_iff_toNat_lt, hbyte]
    omega
  have hvalue {n : UInt8} (h : UInt8.ofNat first = n) : first = n.toNat := by
    rw [← h, toNat_ofNat_of_lt hfirst]
  rw [secondRange]
  split
  · next h => exact hwithin (Nat.add_le_add_right (he0 (hvalue h)) 128) (by simp; omega)
  · split
    · next h =>
      have := hed (hvalue h)
      exact hwithin (by simp) (by simp; omega)
    · split
      · next h => exact hwithin (Nat.add_le_add_right (hf0 (hvalue h)) 128) (by simp; omega)
      · split
        · next h =>
          have := hf4 (hvalue h)
          exact hwithin (by simp) (by simp; omega)
        · exact hwithin (by simp) (by simp; omega)

/-- What a character is written with reads back as this character, whatever comes after it. -/
theorem decodeLossy_utf8EncodeChar_append (c : Char) (rest : List UInt8) :
    decodeLossy (String.utf8EncodeChar c ++ rest) = c :: decodeLossy rest := by
  have hvalid : c.val.toNat < 0xd800 ∨ 0xdfff < c.val.toNat ∧ c.val.toNat < 0x110000 := c.valid
  have hread {n : Nat} (h : n = c.val.toNat) : Char.ofNat n = c := by
    rw [h]
    exact Char.ofNat_toNat c
  rw [String.utf8EncodeChar]
  generalize c.val.toNat = v at hread hvalid ⊢
  have hlead {n : Nat} (h : n < 256) := toNat_ofNat_of_lt h
  by_cases hone : v ≤ 127
  · have hfirst := hlead (show v < 256 by omega)
    rw [if_pos hone, List.singleton_append, decodeLossy_one _ (by omega), hread hfirst]
  rw [if_neg hone]
  by_cases htwo : v ≤ 2047
  · have hfirst := hlead (show v / 64 % 32 + 192 < 256 by omega)
    have hlast : v % 64 < 64 := by omega
    rw [if_pos htwo, List.cons_append, List.singleton_append,
      decodeLossy_two _ (by omega) (by omega) (isContinuation_ofNat hlast), hread]
    rw [hfirst, payload_ofNat hlast]
    omega
  rw [if_neg htwo]
  by_cases hthree : v ≤ 65535
  · have hfirst := hlead (show v / 4096 % 16 + 224 < 256 by omega)
    have hsecond : v / 64 % 64 < 64 := by omega
    have hlast : v % 64 < 64 := by omega
    rw [if_pos hthree, List.cons_append, List.cons_append, List.singleton_append,
      decodeLossy_three _ (by omega) (by omega)
        (not_outside_secondRange (by omega) hsecond (by omega) (by omega) (by omega) (by omega))
        (isContinuation_ofNat hlast), hread]
    rw [hfirst, payload_ofNat hsecond, payload_ofNat hlast]
    omega
  · have hfirst := hlead (show v / 262144 % 8 + 240 < 256 by omega)
    have hsecond : v / 4096 % 64 < 64 := by omega
    have hthird : v / 64 % 64 < 64 := by omega
    have hlast : v % 64 < 64 := by omega
    rw [if_neg hthree, List.cons_append, List.cons_append, List.cons_append, List.singleton_append,
      decodeLossy_four _ (by omega) (by omega)
        (not_outside_secondRange (by omega) hsecond (by omega) (by omega) (by omega) (by omega))
        (isContinuation_ofNat hthird) (isContinuation_ofNat hlast), hread]
    rw [hfirst, payload_ofNat hsecond, payload_ofNat hthird, payload_ofNat hlast]
    omega

theorem decodeLossy_flatMap_utf8EncodeChar (text : List Char) :
    decodeLossy (text.flatMap String.utf8EncodeChar) = text := by
  induction text with
  | nil => rw [List.flatMap_nil, decodeLossy]
  | cons c rest ih => rw [List.flatMap_cons, decodeLossy_utf8EncodeChar_append, ih]

/-- The bytes of a text are read as this text. -/
theorem decodeLossy_byteList_toUTF8 (text : String) :
    decodeLossy (byteList text.toUTF8) = text.toList := by
  rw [← decodeLossy_flatMap_utf8EncodeChar text.toList, ← byteList_toUTF8, String.ofList_toList]

/-! ### Bytes as characters -/

/-- The text whose characters are these bytes. -/
def ofAscii (bytes : List UInt8) : List Char := bytes.map fun b ↦ Char.ofNat b.toNat

/-- Bytes that are characters of their own are the bytes of the text that they make. -/
theorem byteList_ofAscii {bytes : List UInt8} (h : ∀ b ∈ bytes, b < 0x80) :
    byteList (String.ofList (ofAscii bytes)).toUTF8 = bytes := by
  rw [byteList_toUTF8, ofAscii, List.flatMap_map]
  induction bytes with
  | nil => rfl
  | cons b rest ih =>
    have hb : b.toNat < 128 := UInt8.lt_iff_toNat_lt.1 (h b List.mem_cons_self)
    have hval : (Char.ofNat b.toNat).val.toNat = b.toNat := by
      rw [Char.ofNat, dif_pos (Or.inl (by omega))]
      rfl
    rw [List.flatMap_cons, ih fun b hb ↦ h b (List.mem_cons_of_mem _ hb), String.utf8EncodeChar,
      hval, if_pos (Nat.le_of_lt_succ hb), UInt8.ofNat_toNat, List.singleton_append]

/-! ### Escapes -/

/-- What holds of the bytes that are kept, of the mark of an escape and of the digits, holds of all
bytes that are written. -/
theorem forall_mem_percentEncode {keep : UInt8 → Bool} {P : UInt8 → Prop}
    (hkeep : ∀ b, keep b = true → P b) (hmark : P 0x25)
    (hdigit : ∀ v < 16, P (capitalHexDigit v)) (bytes : List UInt8) :
    ∀ b ∈ percentEncode keep bytes, P b := by
  induction bytes with
  | nil => simp [percentEncode]
  | cons a rest ih =>
    rw [percentEncode]
    split
    · next h => exact List.forall_mem_cons.2 ⟨hkeep a h, ih⟩
    · exact List.forall_mem_cons.2 ⟨hmark, List.forall_mem_cons.2 ⟨hdigit _ (div_sixteen_lt a),
        List.forall_mem_cons.2 ⟨hdigit _ (mod_sixteen_lt a), ih⟩⟩⟩

/-- A class of bytes that can stand in the value of a pair as they are: they are characters of their
own, and none of the signs that have a meaning there. -/
structure IsFormClass (keep : UInt8 → Bool) : Prop where
  ascii : ∀ b, keep b = true → b < 0x80
  escape : keep 0x25 = false
  plus : keep 0x2b = false
  ampersand : keep 0x26 = false

variable {keep : UInt8 → Bool}

/-- A value that is written has no sign with a meaning but those of its escapes. -/
theorem IsFormClass.mem_percentEncode (h : IsFormClass keep) {bytes : List UInt8} {b : UInt8}
    (hb : b ∈ percentEncode keep bytes) : b < 0x80 ∧ b ≠ 0x2b ∧ b ≠ 0x26 := by
  have hne {b other : UInt8} (hkeep : keep b = true) (hother : keep other = false) : b ≠ other := by
    rintro rfl
    rw [hother] at hkeep
    cases hkeep
  have hdigit : ∀ v < 16,
      capitalHexDigit v < 0x80 ∧ capitalHexDigit v ≠ 0x2b ∧ capitalHexDigit v ≠ 0x26 :=
    forall_digit (by decide)
  have hkept (b : UInt8) (hkeep : keep b = true) : b < 0x80 ∧ b ≠ 0x2b ∧ b ≠ 0x26 :=
    ⟨h.ascii b hkeep, hne hkeep h.plus, hne hkeep h.ampersand⟩
  exact forall_mem_percentEncode (P := fun b ↦ b < 0x80 ∧ b ≠ 0x2b ∧ b ≠ 0x26) hkept (by decide)
    hdigit bytes b hb

theorem formText_percentEncode (h : IsFormClass keep) (text : String) :
    formText (percentEncode keep (byteList text.toUTF8)) = text := by
  have hplain : (percentEncode keep (byteList text.toUTF8)).map
      (fun b ↦ if b = 0x2b then 0x20 else b) = percentEncode keep (byteList text.toUTF8) := by
    rw [List.map_congr_left fun b hb ↦ if_neg (h.mem_percentEncode hb).2.1]
    exact List.map_id' _
  rw [formText, hplain, percentDecode_percentEncode h.escape, decodeLossy_byteList_toUTF8,
    String.ofList_toList]

/-! ### One pair -/

theorem formPairs_single {name value : List UInt8} (hname : ∀ b ∈ name, b ≠ 0x26 ∧ b ≠ 0x3d)
    (hvalue : 0x26 ∉ value) :
    formPairs (name ++ 0x3d :: value) = [(formText name, formText value)] := by
  have hname' : ∀ b ∈ name, decide (b ≠ 0x3d) = true := fun b hb ↦ decide_eq_true (hname b hb).2
  have hone : 0x26 ∉ name ++ 0x3d :: value := by
    rw [List.mem_append, List.mem_cons, not_or, not_or]
    exact ⟨fun hb ↦ (hname _ hb).1 rfl, by decide, hvalue⟩
  rw [formPairs, segments_of_not_mem hone, List.filter_cons_of_pos (by simp), List.filter_nil,
    List.map_singleton, List.takeWhile_append_of_pos hname', List.dropWhile_append_of_pos hname',
    List.takeWhile_cons_of_neg (by decide), List.dropWhile_cons_of_neg (by decide),
    List.append_nil, List.drop_one, List.tail_cons]

end ImageRegistry.Text
