/-!
# Reading bytes as text

Bytes are text when they are well-formed UTF-8. `utf8?` refuses other bytes; `decodeLossy` puts
U+FFFD in the place of each longest run of bytes that begins a character and does not end one.
-/

namespace ImageRegistry.Text

/-- Of the ways to decide whether bytes are equal, the one that needs no other library. -/
instance (priority := high) decidableEqBytes : DecidableEq ByteArray := ByteArray.instDecidableEq

/-- The text that well-formed bytes encode. -/
def utf8? (bytes : ByteArray) : Option String := String.fromUTF8? bytes

/-- The bytes of a list. -/
def bytesOf (l : List UInt8) : ByteArray := ⟨l.toArray⟩

/-- The bytes as a list. -/
def byteList (b : ByteArray) : List UInt8 := b.data.toList

@[simp] theorem byteList_bytesOf (l : List UInt8) : byteList (bytesOf l) = l := rfl

@[simp] theorem bytesOf_byteList (b : ByteArray) : bytesOf (byteList b) = b := rfl

/-- Whether a byte can follow the first byte of a character. -/
def isContinuation (b : UInt8) : Bool := 0x80 ≤ b && b ≤ 0xbf

/-- The range of the second byte after a first byte of a character of three or four bytes; it leaves
out the forms that are too long, the surrogates and what lies above U+10FFFF. -/
def secondRange (first : UInt8) : UInt8 × UInt8 :=
  if first = 0xe0 then (0xa0, 0xbf)
  else if first = 0xed then (0x80, 0x9f)
  else if first = 0xf0 then (0x90, 0xbf)
  else if first = 0xf4 then (0x80, 0x8f)
  else (0x80, 0xbf)

/-- The six bits that a following byte carries. -/
def payload (b : UInt8) : Nat := b.toNat % 64

/-- The character that stands for bytes that encode none. -/
def replacement : Char := '\uFFFD'

/-- The text that the bytes encode, with U+FFFD for what is not well-formed. -/
def decodeLossy : List UInt8 → List Char
  | [] => []
  | a :: rest =>
    if a < 0x80 then Char.ofNat a.toNat :: decodeLossy rest
    else if a < 0xc2 ∨ 0xf4 < a then replacement :: decodeLossy rest
    else match rest with
      | [] => [replacement]
      | b :: rest₁ =>
        if a < 0xe0 then
          if isContinuation b then
            Char.ofNat (a.toNat % 32 * 64 + payload b) :: decodeLossy rest₁
          else replacement :: decodeLossy (b :: rest₁)
        else if b < (secondRange a).1 ∨ (secondRange a).2 < b then
          replacement :: decodeLossy (b :: rest₁)
        else match rest₁ with
          | [] => [replacement]
          | c :: rest₂ =>
            if !isContinuation c then replacement :: decodeLossy (c :: rest₂)
            else if a < 0xf0 then
              Char.ofNat ((a.toNat % 16 * 64 + payload b) * 64 + payload c) :: decodeLossy rest₂
            else match rest₂ with
              | [] => [replacement]
              | d :: rest₃ =>
                if isContinuation d then
                  Char.ofNat (((a.toNat % 8 * 64 + payload b) * 64 + payload c) * 64 + payload d)
                    :: decodeLossy rest₃
                else replacement :: decodeLossy (d :: rest₃)
  termination_by l => l.length

end ImageRegistry.Text
