import ImageRegistry.Text.Decimal

/-!
# JSON documents

A document as a tree of values. A string or a name whose escapes or bytes encode no text is kept as
`none`: where a reader skips a value such a string does no harm, and where it wants the text it is
an error. A number keeps its digits, so that nothing is rounded.

A record may be written as an object or as an array of its fields in order; `Value.fields?` reads
both, and `optional`, `defaulted` and `required` read one field of it.
-/

namespace ImageRegistry.Json

/-- A number as it is written: a sign, the digits of whole part and fraction together, and the power
of ten they are counted in. -/
structure Number where
  negative : Bool
  /-- Neither a fraction nor an exponent is written. -/
  whole : Bool
  significand : Nat
  exponent : Int
  deriving DecidableEq, Repr

/-- A JSON value. -/
inductive Value where
  | null
  | boolean (value : Bool)
  | number (value : Number)
  | string (text : Option String)
  | array (items : List Value)
  | object (members : List (Option String × Value))
  deriving Repr

namespace Value

/-! ### Plain values -/

/-- The text of a string. -/
def text? : Value → Option String
  | string text => text
  | _ => none

/-- A number without sign, fraction and exponent, below `bound`. -/
def unsigned? (bound : Nat) : Value → Option Nat
  | number n => if n.whole && !n.negative && decide (n.significand < bound) then some n.significand
    else none
  | _ => none

/-- The items of an array, each of them read by `read`. -/
def list? {α : Type} (read : Value → Option α) : Value → Option (List α)
  | array items => items.mapM read
  | _ => none

/-! ### Records -/

/-- The only member of a name: absent, or given once. A name that is given twice is an error. -/
def member? (members : List (Option String × Value)) (name : String) : Option (Option Value) :=
  match members.filter fun m ↦ m.1 = some name with
  | [] => some none
  | [m] => some (some m.2)
  | _ => none

/-- The fields of a record in the order of `names`, each of them absent or given. In an object the
names must be text and other names are skipped; an array may be too short and not too long. -/
def fields? (names : List String) : Value → Option (List (Option Value))
  | object members =>
    if members.all fun m ↦ m.1.isSome then names.mapM (member? members) else none
  | array items =>
    if items.length ≤ names.length then
      some (items.map some ++ List.replicate (names.length - items.length) none)
    else none
  | _ => none

/-- A field that may be absent or `null`. -/
def optional {α : Type} (read : Value → Option α) : Option Value → Option (Option α)
  | none => some none
  | some null => some none
  | some value => (read value).map some

/-- A field that stands for `default` when it is absent. -/
def defaulted {α : Type} (default : α) (read : Value → Option α) : Option Value → Option α
  | none => some default
  | some value => read value

/-- A field that must be given. -/
def required {α : Type} (read : Value → Option α) : Option Value → Option α
  | none => none
  | some value => read value

/-! ### Tagged records -/

/-- A record whose kind is named by a member `tag`, or by the first item of an array: the kind, and
the record without it. -/
def tagged? (tag : String) : Value → Option (String × Value)
  | object members => do
    let kind ← (← member? members tag) >>= text?
    return (kind, object (members.filter fun m ↦ m.1 ≠ some tag))
  | array (kind :: items) => kind.text?.map fun k ↦ (k, array items)
  | _ => none

/-- The least number that is too great for a double: halfway between the greatest double and the
next power of two. -/
def doubleBound : Nat := (1 <<< 1024) - (1 <<< 970)

/-- Whether a number has a place among the doubles. A value of more than 310 digits has none. -/
def fitsDouble (n : Number) : Bool :=
  n.significand == 0 ||
    (let magnitude : Int := (Nat.toDigits 10 n.significand).length + n.exponent
     if 310 < magnitude then false
     else if magnitude < 300 then true
     else if 0 ≤ n.exponent then decide (n.significand * Nat.pow 10 n.exponent.toNat < doubleBound)
     else decide (n.significand < doubleBound * Nat.pow 10 (-n.exponent).toNat))

mutual

/-- Whether a value can be held as it stands, at most `depth` levels deep: its strings and names are
text and its numbers fit a double. -/
def holdable : Nat → Value → Bool
  | _, null => true
  | _, boolean _ => true
  | _, number n => n.whole && decide (n.significand < Text.wordBound) || fitsDouble n
  | _, string text => text.isSome
  | 0, array _ => false
  | depth + 1, array items => holdableItems depth items
  | 0, object _ => false
  | depth + 1, object members => holdableMembers depth members

/-- Whether all items can be held. -/
def holdableItems : Nat → List Value → Bool
  | _, [] => true
  | depth, v :: rest => holdable depth v && holdableItems depth rest

/-- Whether all members can be held. -/
def holdableMembers : Nat → List (Option String × Value) → Bool
  | _, [] => true
  | depth, (name, v) :: rest =>
    name.isSome && holdable depth v && holdableMembers depth rest

end

end Value

end ImageRegistry.Json
