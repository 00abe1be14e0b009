import ImageRegistry.Text.Split

/-!
# The text of a duration

A duration is a number of nanoseconds. It is written in the largest of the units second,
millisecond, microsecond and nanosecond of which it holds one, with the digits of the fraction that
are needed and no more: `1.5s`, `10ms`, `1.5µs`, `0ns`.
-/

namespace ImageRegistry.Text

/-- The nanoseconds of a second. -/
abbrev second : Nat := 1000000000

/-- The nanoseconds of a millisecond. -/
abbrev millisecond : Nat := 1000000

/-- The nanoseconds of a microsecond. -/
abbrev microsecond : Nat := 1000

/-- A number of nanoseconds in a unit of so many nanoseconds, which is a power of ten. -/
def inUnit (unit : Nat) (name : String) (nanos : Nat) : String :=
  let digits := (Nat.toDigits 10 (unit + nanos % unit)).drop 1
  let fraction := dropTrailing (· = '0') digits
  toString (nanos / unit) ++
    (if fraction.isEmpty then "" else "." ++ String.ofList fraction) ++ name

/-- The text of a duration of so many nanoseconds. -/
def duration (nanos : Nat) : String :=
  if second ≤ nanos then inUnit second "s" nanos
  else if millisecond ≤ nanos then inUnit millisecond "ms" nanos
  else if microsecond ≤ nanos then inUnit microsecond "µs" nanos
  else inUnit 1 "ns" nanos

end ImageRegistry.Text
