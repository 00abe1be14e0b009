/-!
# Unsigned decimal numbers

A number is written with decimal digits. Reading allows leading zeros and one leading plus sign, and
refuses a number that is not below the bound of its type (`unsigned?_eq_some_iff`).
-/

namespace ImageRegistry.Text

/-- The first number that 64 bits do not hold. -/
abbrev wordBound : Nat := 0x10000000000000000

/-- The decimal digits of a number. -/
def digits (n : Nat) : List Char := Nat.toDigits 10 n

/-- The number that a text of decimal digits writes. -/
def ofDigits? (text : List Char) : Option Nat :=
  if text ≠ [] ∧ text.all Char.isDigit = true then some (Nat.ofDigitChars 10 text 0) else none

/-- The text without one plus sign in front. -/
def dropPlus : List Char → List Char
  | [] => []
  | c :: rest => if c = '+' then rest else c :: rest

/-- The number below `bound` that a text writes. -/
def unsigned? (bound : Nat) (text : List Char) : Option Nat :=
  (ofDigits? (dropPlus text)).filter fun n ↦ decide (n < bound)

/-! ### Laws -/

theorem digits_ne_nil (n : Nat) : digits n ≠ [] := Nat.toDigits_ne_nil

theorem isDigit_of_mem_digits {n : Nat} {c : Char} (h : c ∈ digits n) : c.isDigit = true :=
  Nat.isDigit_of_mem_toDigits (by decide) (by decide) h

theorem toList_toString (n : Nat) : (toString n).toList = digits n := by
  show (Nat.repr n).toList = _
  simp [Nat.repr, digits]

/-- A text reads as a number exactly when it is digits that write it, with or without a plus sign
in front, and the number is below the bound. -/
theorem unsigned?_eq_some_iff {bound n : Nat} {text : List Char} :
    unsigned? bound text = some n ↔
      dropPlus text ≠ [] ∧ (dropPlus text).all Char.isDigit = true ∧
        Nat.ofDigitChars 10 (dropPlus text) 0 = n ∧ n < bound := by
  unfold unsigned? ofDigits?
  split
  · next h =>
    simp only [Option.filter_eq_some_iff, Option.some.injEq, decide_eq_true_eq]
    exact ⟨fun ⟨h1, h2⟩ ↦ ⟨h.1, h.2, h1, h2⟩, fun ⟨_, _, h1, h2⟩ ↦ ⟨h1, h2⟩⟩
  · next h =>
    simp only [Option.filter_none, reduceCtorEq, false_iff]
    exact fun ⟨h1, h2, _⟩ ↦ h ⟨h1, h2⟩

end ImageRegistry.Text
