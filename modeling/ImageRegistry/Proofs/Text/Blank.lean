import ImageRegistry.Text.Blank
import Mathlib.Data.List.TakeWhile

/-!
# Text and the blanks around it

`trim` takes away blanks at both ends and nothing else (`exists_eq_trim`), and it takes away all of
them, so that a text without blanks at its ends is what is left of every text that has it between
blanks (`trim_eq_iff`).
-/

namespace ImageRegistry.Text

/-- Neither the first nor the last character is a blank. -/
def IsBare (text : List Char) : Prop :=
  (∀ c ∈ text.head?, isBlank c = false) ∧ ∀ c ∈ text.getLast?, isBlank c = false

instance (text : List Char) : Decidable (IsBare text) :=
  decidable_of_iff
    (text.head?.all (!isBlank ·) = true ∧ text.getLast?.all (!isBlank ·) = true)
    (by simp [IsBare, Option.all_eq_true])

theorem exists_eq_dropTrailing {α : Type} (p : α → Bool) (text : List α) :
    ∃ trail, text = dropTrailing p text ++ trail ∧ ∀ c ∈ trail, p c = true := by
  refine ⟨(text.reverse.takeWhile p).reverse, ?_, fun c hc ↦ ?_⟩
  · rw [dropTrailing, ← List.reverse_append, List.takeWhile_append_dropWhile, List.reverse_reverse]
  · exact List.mem_takeWhile_imp (List.mem_reverse.1 hc)

/-- What is taken away are blanks. -/
theorem exists_eq_trim (text : List Char) :
    ∃ lead trail, text = lead ++ trim text ++ trail ∧
      (∀ c ∈ lead, isBlank c = true) ∧ ∀ c ∈ trail, isBlank c = true := by
  obtain ⟨trail, htrail, hblank⟩ := exists_eq_dropTrailing isBlank (trimStart text)
  refine ⟨text.takeWhile isBlank, trail, ?_, fun c hc ↦ List.mem_takeWhile_imp hc, hblank⟩
  rw [List.append_assoc, trim, trimEnd, ← htrail, trimStart, List.takeWhile_append_dropWhile]

theorem dropWhile_eq_self {p : Char → Bool} {text : List Char}
    (h : ∀ c ∈ text.head?, p c = false) : text.dropWhile p = text := by
  cases text with
  | nil => rfl
  | cons c rest => rw [List.dropWhile_cons, if_neg (by simp [h c rfl])]

/-- There are only blanks. -/
def IsBlanks (text : List Char) : Prop := ∀ c ∈ text, isBlank c = true

theorem IsBlanks.append {text more : List Char} (h : IsBlanks text) (hmore : IsBlanks more) :
    IsBlanks (text ++ more) :=
  fun c hc ↦ (List.mem_append.1 hc).elim (h c) (hmore c)

theorem trimStart_append {lead : List Char} (h : IsBlanks lead) (text : List Char) :
    trimStart (lead ++ text) = trimStart text := List.dropWhile_append_of_pos h

theorem trimEnd_of_isBlanks {text : List Char} (h : IsBlanks text) : trimEnd text = [] := by
  rw [trimEnd, dropTrailing, List.reverse_eq_nil_iff, List.dropWhile_eq_nil_iff]
  exact fun c hc ↦ h c (List.mem_reverse.1 hc)

/-- What is before a character of another kind stays. -/
theorem dropTrailing_append_cons {p : Char → Bool} (front : List Char) {c : Char} (hc : p c = false)
    (rest : List Char) :
    dropTrailing p (front ++ c :: rest) = front ++ c :: dropTrailing p rest := by
  have hfront : ([c] ++ front.reverse).dropWhile p = [c] ++ front.reverse :=
    dropWhile_eq_self (by simp [hc])
  rw [dropTrailing, dropTrailing, List.reverse_append, List.reverse_cons, List.append_assoc,
    List.dropWhile_append]
  split
  · next hempty => rw [hfront, List.isEmpty_iff.1 hempty]; simp
  · simp

theorem trimEnd_append_cons (front : List Char) {c : Char} (hc : isBlank c = false)
    (rest : List Char) : trimEnd (front ++ c :: rest) = front ++ c :: trimEnd rest :=
  dropTrailing_append_cons front hc rest

/-- A text that is bare is what is left of it between blanks. -/
theorem trim_append {lead text trail : List Char} (hbare : IsBare text) (hne : text ≠ [])
    (hlead : ∀ c ∈ lead, isBlank c = true) (htrail : ∀ c ∈ trail, isBlank c = true) :
    trim (lead ++ text ++ trail) = text := by
  have hstart : trimStart (lead ++ text ++ trail) = text ++ trail := by
    rw [trimStart, List.append_assoc, List.dropWhile_append_of_pos hlead]
    refine dropWhile_eq_self fun c hc ↦ hbare.1 c ?_
    obtain ⟨first, rest, rfl⟩ := List.exists_cons_of_ne_nil hne
    exact hc
  have hrest : text.reverse.dropWhile isBlank = text.reverse :=
    dropWhile_eq_self fun c hc ↦ hbare.2 c (by rwa [List.head?_reverse] at hc)
  rw [trim, hstart, trimEnd, dropTrailing, List.reverse_append,
    List.dropWhile_append_of_pos (fun c hc ↦ htrail c (List.mem_reverse.1 hc)), hrest,
    List.reverse_reverse]

theorem trim_eq_iff {text bare : List Char} (hbare : IsBare bare) (hne : bare ≠ []) :
    trim text = bare ↔ ∃ lead trail, text = lead ++ bare ++ trail ∧
      (∀ c ∈ lead, isBlank c = true) ∧ ∀ c ∈ trail, isBlank c = true := by
  constructor
  · rintro rfl
    exact exists_eq_trim text
  · rintro ⟨lead, trail, rfl, hlead, htrail⟩
    exact trim_append hbare hne hlead htrail

end ImageRegistry.Text
