/-!
# Cutting text at marks

Text is cut as a list, of characters or of bytes. `splitFirst` cuts at the first occurrence of a
mark, `splitLast` at the last occurrence of a word, `segments` at every occurrence of a mark.
Nothing is lost by a cut: `splitFirst_eq_some_iff` and `eq_of_splitLast` put the parts together
again.
-/

namespace ImageRegistry.Text

universe u

variable {α : Type u} [DecidableEq α]

/-- The text before the first `mark` and the text after it. -/
def splitFirst (mark : α) : List α → Option (List α × List α)
  | [] => none
  | c :: rest =>
    if c = mark then some ([], rest) else (splitFirst mark rest).map fun p ↦ (c :: p.1, p.2)

/-- The text before the last occurrence of the word `mark` and the text after it. -/
def splitLast (mark : List α) : List α → Option (List α × List α)
  | [] => none
  | c :: rest =>
    match splitLast mark rest with
    | some (before, after) => some (c :: before, after)
    | none =>
      if mark.isPrefixOf (c :: rest) then some ([], (c :: rest).drop mark.length) else none

/-- The parts between the marks; a text without a mark is one part. -/
def segments (mark : α) : List α → List (List α)
  | [] => [[]]
  | c :: rest =>
    if c = mark then [] :: segments mark rest
    else match segments mark rest with
      | [] => [[c]]
      | part :: parts => (c :: part) :: parts

/-- The text after the word `lead`, if it begins with it. -/
def stripLead? (lead text : List α) : Option (List α) :=
  if lead.isPrefixOf text then some (text.drop lead.length) else none

/-- The text without the characters of the class at its end. -/
def dropTrailing {α : Type u} (p : α → Bool) (text : List α) : List α :=
  (text.reverse.dropWhile p).reverse

/-- Whether the word occurs somewhere in the text. -/
def occurs (word : List α) : List α → Bool
  | [] => word.isEmpty
  | c :: rest => word.isPrefixOf (c :: rest) || occurs word rest

/-! ### Laws -/

/-- A cut at the first mark leaves no mark before it, and loses the mark alone. -/
theorem splitFirst_eq_some_iff {mark : α} {text before after : List α} :
    splitFirst mark text = some (before, after) ↔
      text = before ++ mark :: after ∧ mark ∉ before := by
  induction text generalizing before with
  | nil => simp [splitFirst]
  | cons c rest ih =>
    by_cases h : c = mark
    · subst h
      cases before with
      | nil => simp [splitFirst]
      | cons b bs =>
        simp only [splitFirst, if_pos, Option.some.injEq, Prod.mk.injEq, List.cons_append,
          List.cons.injEq, List.mem_cons, not_or]
        constructor
        · rintro ⟨h', -⟩; cases h'
        · rintro ⟨⟨h', -⟩, h'', -⟩; exact absurd h' h''
    · cases before with
      | nil => simp [splitFirst, h]
      | cons b bs =>
        simp only [splitFirst, if_neg h, Option.map_eq_some_iff, Prod.exists, Prod.mk.injEq,
          List.cons.injEq, List.cons_append, List.mem_cons, not_or]
        constructor
        · rintro ⟨x, y, hxy, ⟨rfl, rfl⟩, rfl⟩
          obtain ⟨h1, h2⟩ := ih.1 hxy
          exact ⟨⟨rfl, h1⟩, Ne.symm h, h2⟩
        · rintro ⟨⟨rfl, h1⟩, -, h2⟩
          exact ⟨bs, after, ih.2 ⟨h1, h2⟩, ⟨rfl, rfl⟩, rfl⟩

theorem splitFirst_eq_none_iff {mark : α} {text : List α} :
    splitFirst mark text = none ↔ mark ∉ text := by
  induction text with
  | nil => simp [splitFirst]
  | cons c rest ih =>
    by_cases h : c = mark
    · simp [splitFirst, h]
    · simp [splitFirst, h, ih, Ne.symm h]

/-- A cut at the last occurrence loses the word alone. -/
theorem eq_of_splitLast {mark text before after : List α}
    (h : splitLast mark text = some (before, after)) : text = before ++ mark ++ after := by
  induction text generalizing before with
  | nil => simp [splitLast] at h
  | cons c rest ih =>
    rw [splitLast] at h
    split at h
    · next b a hrest =>
      obtain ⟨rfl, rfl⟩ := Prod.mk.injEq .. ▸ Option.some.inj h
      simp [ih hrest]
    · split at h
      · next hp =>
        obtain ⟨rfl, rfl⟩ := Prod.mk.injEq .. ▸ Option.some.inj h
        obtain ⟨t, ht⟩ := List.isPrefixOf_iff_prefix.1 hp
        rw [← ht]; simp
      · cases h

/-- There is no last occurrence of a word exactly when there is none. -/
theorem splitLast_eq_none_iff {mark text : List α} (hmark : mark ≠ []) :
    splitLast mark text = none ↔ ¬ mark <:+: text := by
  induction text with
  | nil => simp [splitLast, hmark]
  | cons c rest ih =>
    rw [List.infix_cons_iff, not_or, ← ih, ← List.isPrefixOf_iff_prefix, splitLast]
    cases splitLast mark rest with
    | some p => simp
    | none => cases mark.isPrefixOf (c :: rest) <;> simp

/-- Behind the last occurrence there is no more than behind any other one. -/
theorem length_le_of_splitLast {mark text before after : List α} (hmark : mark ≠ [])
    (h : splitLast mark text = some (before, after)) {front back : List α}
    (htext : text = front ++ mark ++ back) : after.length ≤ back.length := by
  induction text generalizing before front with
  | nil => simp [splitLast] at h
  | cons c rest ih =>
    rw [splitLast] at h
    split at h
    · next b a hrest =>
      obtain ⟨-, rfl⟩ := Prod.mk.injEq .. ▸ Option.some.inj h
      cases front with
      | nil =>
        have hlength := congrArg List.length htext
        rw [eq_of_splitLast hrest] at hlength
        simp only [List.length_cons, List.length_append, List.nil_append] at hlength
        omega
      | cons d front => exact ih hrest (List.cons.inj htext).2
    · next hnone =>
      split at h
      · obtain ⟨-, rfl⟩ := Prod.mk.injEq .. ▸ Option.some.inj h
        cases front with
        | nil => rw [htext]; simp
        | cons d front =>
          have hrest : mark <:+: rest := ⟨front, back, (List.cons.inj htext).2.symm⟩
          exact absurd hrest ((splitLast_eq_none_iff hmark).1 hnone)
      · cases h

theorem segments_ne_nil (mark : α) (text : List α) : segments mark text ≠ [] := by
  cases text with
  | nil => simp [segments]
  | cons c rest =>
    rw [segments]
    split
    · simp
    · split <;> simp

theorem segments_of_not_mem {mark : α} {text : List α} (h : mark ∉ text) :
    segments mark text = [text] := by
  induction text with
  | nil => rfl
  | cons c rest ih =>
    rw [List.mem_cons, not_or] at h
    rw [segments, if_neg (Ne.symm h.1), ih h.2]

/-- A mark parts the text before it from the text after it. -/
theorem segments_append (mark : α) (before after : List α) :
    segments mark (before ++ mark :: after) = segments mark before ++ segments mark after := by
  induction before with
  | nil => simp [segments]
  | cons c rest ih =>
    rw [List.cons_append, segments, segments, ih]
    split
    · rfl
    · cases hrest : segments mark rest with
      | nil => exact absurd hrest (segments_ne_nil mark rest)
      | cons part parts => rfl

/-- No part holds the mark. -/
theorem not_mem_of_mem_segments {mark : α} {text part : List α}
    (h : part ∈ segments mark text) : mark ∉ part := by
  induction text generalizing part with
  | nil => simp only [segments, List.mem_singleton] at h; simp [h]
  | cons c rest ih =>
    rw [segments] at h
    split at h
    · rcases List.mem_cons.1 h with rfl | h
      · simp
      · exact ih h
    · next hc =>
      split at h
      · simp only [List.mem_singleton] at h; simp [h, Ne.symm hc]
      · next p ps heq =>
        rcases List.mem_cons.1 h with rfl | h
        · simp only [List.mem_cons, not_or]
          exact ⟨Ne.symm hc, ih (heq ▸ List.mem_cons_self)⟩
        · exact ih (heq ▸ List.mem_cons_of_mem _ h)

theorem stripLead?_eq_some_iff {lead text rest : List α} :
    stripLead? lead text = some rest ↔ text = lead ++ rest := by
  unfold stripLead?
  constructor
  · intro h
    split at h
    · next hp =>
      obtain ⟨t, ht⟩ := List.isPrefixOf_iff_prefix.1 hp
      subst ht
      simpa using h
    · cases h
  · rintro rfl
    simp [List.isPrefixOf_iff_prefix]

end ImageRegistry.Text
