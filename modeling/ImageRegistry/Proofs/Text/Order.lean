import ImageRegistry.Proofs.Link.Path
import Mathlib.Data.String.Basic

/-!
# The order of texts and of their bytes

Texts compare by their characters. Written as UTF-8 they compare alike by their bytes
(`byteList_lt_iff`), because characters do so (`utf8EncodeChar_append_lt`): a character with a
longer form begins with a greater byte, and forms of one length compare digit by digit.
-/

namespace ImageRegistry.Text

/-- Bytes compare by the first byte that differs. -/
theorem ofNat_cons_lt {m n : Nat} {x y : List UInt8} (hle : m ≤ n) (hn : n < 256)
    (h : m = n → x < y) : UInt8.ofNat m :: x < UInt8.ofNat n :: y := by
  rw [List.cons_lt_cons_iff]
  rcases Nat.lt_or_eq_of_le hle with hlt | rfl
  · exact Or.inl ((UInt8.ofNat_lt_iff_lt (hlt.trans hn) hn).2 hlt)
  · exact Or.inr ⟨rfl, h rfl⟩

/-- A smaller character begins smaller bytes, whatever comes after it. -/
theorem utf8EncodeChar_append_lt {c d : Char} (h : c < d) (x y : List UInt8) :
    String.utf8EncodeChar c ++ x < String.utf8EncodeChar d ++ y := by
  have hval : c.val.toNat < d.val.toNat := UInt32.lt_iff_toNat_lt.1 h
  have hbound : d.val.toNat < 1114112 := by
    rcases d.valid with hd | ⟨-, hd⟩ <;> omega
  rw [String.utf8EncodeChar, String.utf8EncodeChar]
  generalize c.val.toNat = m at hval ⊢
  generalize d.val.toNat = n at hval hbound ⊢
  have hshorter {first second : Nat} {x y : List UInt8} (hlt : first < second)
      (hsecond : second < 256) : UInt8.ofNat first :: x < UInt8.ofNat second :: y :=
    ofNat_cons_lt hlt.le hsecond fun heq ↦ absurd heq hlt.ne
  -- By the length of the greater form; the other one is no longer.
  by_cases hone : n ≤ 127
  · rw [if_pos hone, if_pos (by omega)]
    exact hshorter hval (by omega)
  · rw [if_neg hone]
    by_cases htwo : n ≤ 2047
    · rw [if_pos htwo]
      split
      · exact hshorter (by omega) (by omega)
      · rw [if_pos (by omega)]
        refine ofNat_cons_lt (by omega) (by omega) fun hfirst ↦ ?_
        exact hshorter (by omega) (by omega)
    · rw [if_neg htwo]
      by_cases hthree : n ≤ 65535
      · rw [if_pos hthree]
        split
        · exact hshorter (by omega) (by omega)
        · split
          · exact hshorter (by omega) (by omega)
          · rw [if_pos (by omega)]
            refine ofNat_cons_lt (by omega) (by omega) fun hfirst ↦ ?_
            refine ofNat_cons_lt (by omega) (by omega) fun hsecond ↦ ?_
            exact hshorter (by omega) (by omega)
      · rw [if_neg hthree]
        split
        · exact hshorter (by omega) (by omega)
        · split
          · exact hshorter (by omega) (by omega)
          · split
            · exact hshorter (by omega) (by omega)
            · refine ofNat_cons_lt (by omega) (by omega) fun hfirst ↦ ?_
              refine ofNat_cons_lt (by omega) (by omega) fun hsecond ↦ ?_
              refine ofNat_cons_lt (by omega) (by omega) fun hthird ↦ ?_
              exact hshorter (by omega) (by omega)

theorem flatMap_utf8EncodeChar_lt {s t : List Char} (h : s < t) :
    s.flatMap String.utf8EncodeChar < t.flatMap String.utf8EncodeChar := by
  induction s generalizing t with
  | nil =>
    cases t with
    | nil => exact absurd h (List.not_lt_nil [])
    | cons d rest =>
      obtain ⟨first, more, hd⟩ := List.exists_cons_of_ne_nil (String.utf8EncodeChar_ne_nil (c := d))
      rw [List.flatMap_nil, List.flatMap_cons, hd, List.cons_append]
      exact List.nil_lt_cons _ _
  | cons c rest ih =>
    cases t with
    | nil => exact absurd h (List.not_lt_nil _)
    | cons d rest' =>
      rw [List.flatMap_cons, List.flatMap_cons]
      rcases List.cons_lt_cons_iff.1 h with hlt | ⟨rfl, hrest⟩
      · exact utf8EncodeChar_append_lt hlt _ _
      · exact List.append_left_lt (ih hrest)

/-- Texts are in the order of their bytes. -/
theorem byteList_lt_iff {a b : String} : byteList a.toUTF8 < byteList b.toUTF8 ↔ a < b := by
  have hlt {a b : String} (h : a < b) : byteList a.toUTF8 < byteList b.toUTF8 := by
    have hbytes := flatMap_utf8EncodeChar_lt (String.lt_iff_toList_lt.1 h)
    rwa [← byteList_toUTF8, ← byteList_toUTF8, String.ofList_toList, String.ofList_toList] at hbytes
  refine ⟨fun h ↦ ?_, hlt⟩
  rcases lt_trichotomy a b with hab | rfl | hba
  · exact hab
  · exact absurd h (List.lt_irrefl _)
  · exact absurd h (List.lt_asymm (hlt hba))

end ImageRegistry.Text
