import ImageRegistry.Blob.Range
import ImageRegistry.Proofs.Text.Blank

/-!
# The grammar of ranges

`Spells` says which texts write a range: blanks, perhaps the unit with blanks behind it, two numbers
between blanks with a dash between them, and perhaps a slash with anything behind it. Reading takes
these texts for just these ranges, and refuses all others as malformed (`parsed_iff_spelled`).

The reader trims the whole text, and then each number again. That takes nothing away that matters,
because a number stays a number between any blanks (`Bounds.trimStart`, `Bounds.trimEnd`). It cuts
at the first slash and the first dash, and these are the right ones, because neither stands in a
number or among blanks (`IsBound.mem`).
-/

namespace ImageRegistry

namespace Text

/-! ### Numbers -/

/-- A text writes a number in decimal digits, with or without a plus sign in front. -/
inductive IsNumeral : List Char → Nat → Prop where
  | plain (digits : List Char) (nonempty : digits ≠ []) (all : ∀ c ∈ digits, c.isDigit = true) :
    IsNumeral digits (Nat.ofDigitChars 10 digits 0)
  | signed (digits : List Char) (nonempty : digits ≠ []) (all : ∀ c ∈ digits, c.isDigit = true) :
    IsNumeral ('+' :: digits) (Nat.ofDigitChars 10 digits 0)

theorem isNumeral_digits (n : Nat) : IsNumeral (digits n) n := by
  have hvalue : Nat.ofDigitChars 10 (digits n) 0 = n :=
    Nat.ofDigitChars_toDigits (by decide) (by decide)
  have hplain := IsNumeral.plain (digits n) (digits_ne_nil n) fun _ ↦ isDigit_of_mem_digits
  rwa [hvalue] at hplain

theorem unsigned?_eq_some_iff_isNumeral {bound n : Nat} {text : List Char} :
    unsigned? bound text = some n ↔ IsNumeral text n ∧ n < bound := by
  rw [unsigned?_eq_some_iff, List.all_eq_true]
  constructor
  · rintro ⟨hnonempty, hall, rfl, hlt⟩
    refine ⟨?_, hlt⟩
    cases text with
    | nil => exact absurd rfl hnonempty
    | cons c rest =>
      by_cases hc : c = '+'
      · subst hc
        exact .signed rest hnonempty hall
      · rw [dropPlus, if_neg hc] at hnonempty hall ⊢
        exact .plain (c :: rest) hnonempty hall
  · rintro ⟨hnumeral, hlt⟩
    cases hnumeral with
    | plain _ hnonempty hall =>
      have hdrop : dropPlus text = text := by
        cases text with
        | nil => rfl
        | cons c rest =>
          have hdigit := hall c List.mem_cons_self
          rw [dropPlus, if_neg]
          rintro rfl
          cases hdigit
      rw [hdrop]
      exact ⟨hnonempty, hall, rfl, hlt⟩
    | signed digits hnonempty hall => exact ⟨hnonempty, hall, rfl, hlt⟩

theorem toNat_of_isDigit {c : Char} (h : c.isDigit = true) : 48 ≤ c.toNat ∧ c.toNat ≤ 57 := by
  simp only [Char.isDigit, Bool.and_eq_true, decide_eq_true_eq] at h
  exact ⟨UInt32.le_iff_toNat_le.1 h.1, UInt32.le_iff_toNat_le.1 h.2⟩

theorem isBlank_of_isDigit {c : Char} (h : c.isDigit = true) : isBlank c = false := by
  have hdigit := toNat_of_isDigit h
  simp only [isBlank, Bool.or_eq_false_iff, Bool.and_eq_false_iff, decide_eq_false_iff_not,
    beq_eq_false_iff_ne]
  omega

variable {text : List Char} {n : Nat}

theorem IsNumeral.mem (h : IsNumeral text n) {c : Char} (hc : c ∈ text) :
    c.isDigit = true ∨ c = '+' := by
  cases h with
  | plain _ _ all => exact Or.inl (all c hc)
  | signed digits _ all =>
    rcases List.mem_cons.1 hc with rfl | hc
    · exact Or.inr rfl
    · exact Or.inl (all c hc)

theorem IsNumeral.ne_nil (h : IsNumeral text n) : text ≠ [] := by
  cases h with
  | plain _ nonempty => exact nonempty
  | signed => simp

/-- There is no blank in a number. -/
theorem IsNumeral.isBlank_eq_false (h : IsNumeral text n) {c : Char} (hc : c ∈ text) :
    isBlank c = false := by
  rcases h.mem hc with hdigit | rfl
  · exact isBlank_of_isDigit hdigit
  · decide

theorem IsNumeral.isBare (h : IsNumeral text n) : IsBare text :=
  ⟨fun _ hc ↦ h.isBlank_eq_false (List.mem_of_head? hc),
    fun _ hc ↦ h.isBlank_eq_false (List.mem_of_getLast? hc)⟩

end Text

namespace Blob

open Text

/-! ### The grammar -/

/-- A number between blanks. -/
def IsBound (text : List Char) (n : Nat) : Prop :=
  ∃ lead numeral trail, text = lead ++ numeral ++ trail ∧ IsBlanks lead ∧ IsNumeral numeral n ∧
    IsBlanks trail

/-- Nothing, or a slash with anything behind it. -/
def IsTotal (text : List Char) : Prop := text = [] ∨ ∃ rest, text = '/' :: rest

/-- Nothing, or the word for the unit with blanks behind it. -/
def IsUnit (text : List Char) : Prop :=
  text = [] ∨ ∃ blanks, text = "bytes".toList ++ blanks ∧ IsBlanks blanks

/-- Two numbers of 64 bits in their order, with a dash between them, and perhaps a total. -/
structure Bounds (text : List Char) (range : Range) : Prop where
  split : ∃ start last total, text = start ++ '-' :: (last ++ total) ∧ IsBound start range.1 ∧
    IsBound last range.2 ∧ IsTotal total
  ordered : range.1 ≤ range.2
  bounded : range.2 < wordBound

/-- A text writes a range, perhaps behind blanks and the unit. -/
def Spells (text : List Char) (range : Range) : Prop :=
  ∃ lead unit bounds, text = lead ++ unit ++ bounds ∧ IsBlanks lead ∧ IsUnit unit ∧
    Bounds bounds range

variable {text blanks : List Char} {range : Range} {n : Nat}

/-! ### Numbers between blanks -/

theorem IsBound.mem (h : IsBound text n) {c : Char} (hc : c ∈ text) :
    isBlank c = true ∨ c.isDigit = true ∨ c = '+' := by
  obtain ⟨lead, numeral, trail, rfl, hlead, hnumeral, htrail⟩ := h
  rcases List.mem_append.1 hc with hc | hc
  · rcases List.mem_append.1 hc with hc | hc
    · exact Or.inl (hlead c hc)
    · exact Or.inr (hnumeral.mem hc)
  · exact Or.inl (htrail c hc)

theorem IsBound.ne_nil (h : IsBound text n) : text ≠ [] := by
  obtain ⟨lead, numeral, trail, rfl, -, hnumeral, -⟩ := h
  simp [hnumeral.ne_nil]

theorem IsBound.dash_not_mem (h : IsBound text n) : '-' ∉ text := fun hc ↦
  absurd (h.mem hc) (by decide)

theorem IsBound.slash_not_mem (h : IsBound text n) : '/' ∉ text := fun hc ↦
  absurd (h.mem hc) (by decide)

theorem bound?_eq_some_iff : bound? text = some n ↔ IsBound text n ∧ n < wordBound := by
  rw [bound?, unsigned?_eq_some_iff_isNumeral, and_congr_left_iff]
  intro _
  constructor
  · intro hnumeral
    obtain ⟨lead, trail, htext, hlead, htrail⟩ := exists_eq_trim text
    exact ⟨lead, trim text, trail, htext, hlead, hnumeral, htrail⟩
  · rintro ⟨lead, numeral, trail, rfl, hlead, hnumeral, htrail⟩
    rwa [trim_append hnumeral.isBare hnumeral.ne_nil hlead htrail]

theorem IsBound.trimStart (h : IsBound text n) (rest : List Char) :
    ∃ start, Text.trimStart (text ++ rest) = start ++ rest ∧ IsBound start n := by
  obtain ⟨lead, numeral, trail, rfl, hlead, hnumeral, htrail⟩ := h
  refine ⟨numeral ++ trail, ?_, [], numeral, trail, rfl, fun c hc ↦ (List.not_mem_nil hc).elim,
    hnumeral, htrail⟩
  obtain ⟨first, more, rfl⟩ := List.exists_cons_of_ne_nil hnumeral.ne_nil
  have hfirst : isBlank first = false := hnumeral.isBlank_eq_false List.mem_cons_self
  rw [List.append_assoc, List.append_assoc, trimStart_append hlead]
  simp [Text.trimStart, hfirst]

theorem IsBound.append_blanks (h : IsBound text n) (hblanks : IsBlanks blanks) :
    IsBound (text ++ blanks) n := by
  obtain ⟨lead, numeral, trail, rfl, hlead, hnumeral, htrail⟩ := h
  exact ⟨lead, numeral, trail ++ blanks, by simp, hlead, hnumeral, htrail.append hblanks⟩

theorem IsBound.trimEnd (h : IsBound text n) (front : List Char) :
    ∃ last, Text.trimEnd (front ++ text) = front ++ last ∧ IsBound last n := by
  obtain ⟨lead, numeral, trail, rfl, hlead, hnumeral, htrail⟩ := h
  refine ⟨lead ++ numeral, ?_, lead, numeral, [], by simp, hlead, hnumeral,
    fun c hc ↦ (List.not_mem_nil hc).elim⟩
  obtain ⟨more, last, rfl⟩ := List.eq_nil_or_concat numeral |>.resolve_left hnumeral.ne_nil
  have hlast : isBlank last = false := hnumeral.isBlank_eq_false (by simp)
  have hassoc : front ++ (lead ++ (more ++ [last]) ++ trail) =
      (front ++ lead ++ more) ++ last :: trail := by simp
  rw [List.concat_eq_append, hassoc, trimEnd_append_cons _ hlast, trimEnd_of_isBlanks htrail]
  simp

/-! ### Two numbers and a total -/

theorem Bounds.trimStart (h : Bounds text range) : Bounds (Text.trimStart text) range := by
  obtain ⟨⟨start, last, total, rfl, hstart, hlast, htotal⟩, hordered, hbounded⟩ := h
  obtain ⟨start', htrim, hstart'⟩ := hstart.trimStart ('-' :: (last ++ total))
  exact ⟨⟨start', last, total, htrim, hstart', hlast, htotal⟩, hordered, hbounded⟩

theorem Bounds.trimEnd (h : Bounds text range) : Bounds (Text.trimEnd text) range := by
  obtain ⟨⟨start, last, total, rfl, hstart, hlast, htotal⟩, hordered, hbounded⟩ := h
  refine ⟨?_, hordered, hbounded⟩
  rcases htotal with rfl | ⟨rest, rfl⟩
  · obtain ⟨last', htrim, hlast'⟩ := hlast.trimEnd (start ++ ['-'])
    exact ⟨start, last', [], by simpa using htrim, hstart, hlast', Or.inl rfl⟩
  · have hslash : isBlank '/' = false := by decide
    have htrim := trimEnd_append_cons (start ++ '-' :: last) hslash rest
    exact ⟨start, last, '/' :: Text.trimEnd rest, by simpa using htrim, hstart, hlast,
      Or.inr ⟨_, rfl⟩⟩

/-- What is in front of two numbers is not trimmed away from their end. -/
theorem Bounds.trimEnd_append (h : Bounds text range) (front : List Char) :
    Text.trimEnd (front ++ text) = front ++ Text.trimEnd text := by
  obtain ⟨⟨start, last, total, rfl, -⟩, -, -⟩ := h
  have hdash : isBlank '-' = false := by decide
  rw [← List.append_assoc, trimEnd_append_cons _ hdash, trimEnd_append_cons _ hdash,
    List.append_assoc]

theorem Bounds.append_blanks (h : Bounds text range) (hblanks : IsBlanks blanks) :
    Bounds (text ++ blanks) range := by
  obtain ⟨⟨start, last, total, rfl, hstart, hlast, htotal⟩, hordered, hbounded⟩ := h
  refine ⟨?_, hordered, hbounded⟩
  rcases htotal with rfl | ⟨rest, rfl⟩
  · exact ⟨start, last ++ blanks, [], by simp, hstart, hlast.append_blanks hblanks, Or.inl rfl⟩
  · exact ⟨start, last, '/' :: (rest ++ blanks), by simp, hstart, hlast, Or.inr ⟨_, rfl⟩⟩

/-- What is left of a text without its total: there was none, or it began at the first slash. -/
theorem exists_eq_withoutTotal (text : List Char) :
    ∃ total, text = withoutTotal text ++ total ∧ IsTotal total := by
  rw [withoutTotal]
  cases hsplit : splitFirst '/' text with
  | none => exact ⟨[], by simp, Or.inl rfl⟩
  | some cut =>
    obtain ⟨before, after⟩ := cut
    exact ⟨'/' :: after, (splitFirst_eq_some_iff.1 hsplit).1, Or.inr ⟨after, rfl⟩⟩

theorem withoutTotal_append {total : List Char} (hslash : '/' ∉ text) (htotal : IsTotal total) :
    withoutTotal (text ++ total) = text := by
  rcases htotal with rfl | ⟨rest, rfl⟩
  · rw [List.append_nil, withoutTotal, splitFirst_eq_none_iff.2 hslash]
  · rw [withoutTotal, splitFirst_eq_some_iff.2 ⟨rfl, hslash⟩]

/-- Cut at the first slash and at the first dash, a text gives the two numbers that it writes. -/
theorem bounds_iff :
    Bounds text range ↔ ∃ start last, splitFirst '-' (withoutTotal text) = some (start, last) ∧
      bound? start = some range.1 ∧ bound? last = some range.2 ∧ range.1 ≤ range.2 := by
  simp only [bound?_eq_some_iff]
  constructor
  · rintro ⟨⟨start, last, total, rfl, hstart, hlast, htotal⟩, hordered, hbounded⟩
    have hslash : '/' ∉ start ++ '-' :: last := by
      simp [hstart.slash_not_mem, hlast.slash_not_mem]
    have hcut := withoutTotal_append hslash htotal
    rw [List.append_assoc, List.cons_append] at hcut
    refine ⟨start, last, ?_, ⟨hstart, by omega⟩, ⟨hlast, hbounded⟩, hordered⟩
    rw [hcut]
    exact splitFirst_eq_some_iff.2 ⟨rfl, hstart.dash_not_mem⟩
  · rintro ⟨start, last, hsplit, ⟨hstart, -⟩, ⟨hlast, hbounded⟩, hordered⟩
    obtain ⟨total, htext, htotal⟩ := exists_eq_withoutTotal text
    rw [(splitFirst_eq_some_iff.1 hsplit).1] at htext
    exact ⟨⟨start, last, total, by simpa using htext, hstart, hlast, htotal⟩, hordered, hbounded⟩

/-! ### The unit -/

/-- Two numbers do not begin with the unit, so nothing is taken off them. -/
theorem Bounds.withoutUnit_eq_self (h : Bounds text range) : withoutUnit text = text := by
  obtain ⟨⟨start, last, total, rfl, hstart, -, -⟩, -, -⟩ := h
  rw [withoutUnit]
  split
  · next rest hlead =>
    obtain ⟨first, more, rfl⟩ := List.exists_cons_of_ne_nil hstart.ne_nil
    obtain ⟨rfl, -⟩ := List.cons.inj (stripLead?_eq_some_iff.1 hlead)
    exact absurd (hstart.mem List.mem_cons_self) (by decide)
  · rfl

theorem exists_eq_withoutUnit (text : List Char) :
    ∃ unit, text = unit ++ withoutUnit text ∧ IsUnit unit := by
  rw [withoutUnit]
  split
  · next rest hlead =>
    refine ⟨"bytes".toList ++ rest.takeWhile isBlank, ?_, Or.inr ⟨_, rfl, ?_⟩⟩
    · rw [stripLead?_eq_some_iff.1 hlead, List.append_assoc, Text.trimStart,
        List.takeWhile_append_dropWhile]
    · exact fun c hc ↦ List.mem_takeWhile_imp hc
  · exact ⟨[], rfl, Or.inl rfl⟩

/-- Without the blanks around it and without its unit, a text that spells a range is two numbers. -/
theorem spells_iff : Spells text range ↔ Bounds (withoutUnit (trim text)) range := by
  constructor
  · rintro ⟨lead, unit, bounds, rfl, hlead, hunit, hbounds⟩
    rw [List.append_assoc, trim, trimStart_append hlead]
    rcases hunit with rfl | ⟨blanks, rfl, hblanks⟩
    · have htrimmed : Bounds (trimEnd (trimStart bounds)) range := hbounds.trimStart.trimEnd
      rwa [List.nil_append, htrimmed.withoutUnit_eq_self]
    · have hword : trimStart ("bytes".toList ++ blanks ++ bounds) =
          "bytes".toList ++ blanks ++ bounds := dropWhile_eq_self (by rintro _ ⟨⟩; rfl)
      have hcut : withoutUnit ("bytes".toList ++ blanks ++ trimEnd bounds) =
          trimStart (trimEnd bounds) := by
        rw [withoutUnit, stripLead?_eq_some_iff.2 (List.append_assoc _ _ _)]
        exact trimStart_append hblanks _
      rw [hword, hbounds.trimEnd_append, hcut]
      exact hbounds.trimEnd.trimStart
  · intro hbounds
    obtain ⟨lead, trail, htext, hlead, htrail⟩ := exists_eq_trim text
    obtain ⟨unit, hunit, hisUnit⟩ := exists_eq_withoutUnit (trim text)
    rw [hunit] at htext
    exact ⟨lead, unit, withoutUnit (trim text) ++ trail, by simpa using htext, hlead, hisUnit,
      hbounds.append_blanks htrail⟩

theorem range?_eq_some_iff {value : String} :
    range? value = some range ↔ Spells value.toList range := by
  rw [spells_iff, bounds_iff, range?]
  simp only [Option.bind_eq_bind, Option.bind_eq_some_iff, Prod.exists]
  refine exists_congr fun start ↦ exists_congr fun last ↦ and_congr_right fun _ ↦ ?_
  constructor
  · rintro ⟨a, hstart, b, hlast, hrange⟩
    split at hrange
    · cases hrange
    · next hordered =>
      obtain rfl := Option.some.inj hrange
      exact ⟨hstart, hlast, Nat.not_lt.1 hordered⟩
  · rintro ⟨hstart, hlast, hordered⟩
    refine ⟨range.1, hstart, range.2, hlast, ?_⟩
    rw [if_neg (Nat.not_lt.2 hordered)]
    rfl

theorem parseRange_eq_ok_iff {value : String} :
    parseRange value = .ok range ↔ Spells value.toList range := by
  rw [← range?_eq_some_iff, parseRange]
  cases range? value <;> simp

/-! ### Spellings -/

/-- A range alone. -/
def plainText (range : Range) : String := toString range.1 ++ "-" ++ toString range.2

/-- A range alone, with its unit, and with its unit and a total. -/
def spellings (range : Range) (total : String) : List String :=
  [plainText range, "bytes " ++ plainText range, "bytes " ++ plainText range ++ "/" ++ total]

theorem isBound_digits (n : Nat) : IsBound (digits n) n :=
  ⟨[], digits n, [], by simp, by simp [IsBlanks], isNumeral_digits n, by simp [IsBlanks]⟩

theorem bounds_plainText (hordered : range.1 ≤ range.2) (hbounded : range.2 < wordBound)
    {total : List Char} (htotal : IsTotal total) :
    Bounds ((plainText range).toList ++ total) range := by
  refine ⟨⟨digits range.1, digits range.2, total, ?_, isBound_digits _, isBound_digits _, htotal⟩,
    hordered, hbounded⟩
  rw [plainText, String.toList_append, String.toList_append, toList_toString, toList_toString]
  simp

/-- Every spelling of a range reads back. -/
theorem parseRange_of_mem_spellings {total text : String} (hordered : range.1 ≤ range.2)
    (hbounded : range.2 < wordBound) (h : text ∈ spellings range total) :
    parseRange text = .ok range := by
  have hplain := bounds_plainText hordered hbounded (Or.inl rfl)
  have htotal := bounds_plainText hordered hbounded (Or.inr ⟨total.toList, rfl⟩)
  have hunit : IsUnit "bytes ".toList := Or.inr ⟨[' '], rfl, by simp [IsBlanks]; decide⟩
  rw [List.append_nil] at hplain
  rw [parseRange_eq_ok_iff]
  simp only [spellings, List.mem_cons, List.not_mem_nil, or_false] at h
  rcases h with rfl | rfl | rfl
  · exact ⟨[], [], _, rfl, by simp [IsBlanks], Or.inl rfl, hplain⟩
  · exact ⟨[], _, _, by simp, by simp [IsBlanks], hunit, hplain⟩
  · exact ⟨[], _, _, by simp, by simp [IsBlanks], hunit, htotal⟩

/-- A text is read as a range exactly when it spells that range, and is refused as malformed exactly
when it spells none. Whatever the total is, each of the usual spellings of a range reads back. -/
theorem parsed_iff_spelled :
    (∀ value range, parseRange value = .ok range ↔ Spells value.toList range) ∧
    (∀ value, parseRange value = .error (.uploadInvalid (.malformedRange value)) ↔
      ∀ range, ¬ Spells value.toList range) ∧
    ∀ (range : Range) (total : String), range.1 ≤ range.2 → range.2 < wordBound →
      ∀ text ∈ spellings range total, parseRange text = .ok range := by
  refine ⟨fun value range ↦ parseRange_eq_ok_iff, fun value ↦ ?_,
    fun range total hordered hbounded text ↦ parseRange_of_mem_spellings hordered hbounded⟩
  simp only [← range?_eq_some_iff, parseRange]
  cases range? value <;> simp

/-- A sign, zeros in front, blanks everywhere, and dashes in the total. -/
example : range? "\t bytes +007 - 9 /1-2/3 " = some (7, 9) := by decide +kernel

/-- The last two numbers of 64 bits, with a total that is not known. -/
theorem parsed_iff_spelled_last :
    let range : Range := (0xfffffffffffffffe, 0xffffffffffffffff)
    let text := "bytes 18446744073709551614-18446744073709551615/*"
    text ∈ spellings range "*" ∧ parseRange text = .ok range := by
  intro range text
  have htext : text ∈ spellings range "*" := by decide +kernel
  exact ⟨htext, parsed_iff_spelled.2.2 range "*" (by decide) (by decide) text htext⟩

end Blob

end ImageRegistry
