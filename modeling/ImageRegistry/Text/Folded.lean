import ImageRegistry.Text.Split

/-!
# Searching without regard to case

A phrase in small basic letters is looked for in a text whose letters are made small. Beside the
capital basic letters, two letters have a basic letter in their small form: the Kelvin sign becomes
`k`, and the dotted capital I becomes `i` and a dot above. No other letter can make such a phrase.
-/

namespace ImageRegistry.Text

/-- The small form of a character, as far as it holds basic letters. -/
def foldCase (c : Char) : List Char :=
  if c.toNat = 0x212a then ['k']
  else if c.toNat = 0x130 then ['i', '\u0307']
  else [c.toLower]

/-- Whether the phrase, in small basic letters, occurs in the text without regard to case. -/
def mentions (text phrase : String) : Bool :=
  occurs phrase.toList (text.toList.flatMap foldCase)

end ImageRegistry.Text
