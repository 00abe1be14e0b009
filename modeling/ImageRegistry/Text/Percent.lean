import ImageRegistry.Text.Utf8

/-!
# Percent escapes

A byte may be written as `%` and two hexadecimal digits. `percentDecode` reads the escapes of a
text and leaves a `%` that begins none; `percentEncode` writes every byte outside a class as an
escape with capital digits. What is written reads back when the class leaves out `%`
(`percentDecode_percentEncode`).
-/

namespace ImageRegistry.Text

/-- The value of a hexadecimal digit. -/
def hexValue? (b : UInt8) : Option UInt8 :=
  if 0x30 ≤ b ∧ b ≤ 0x39 then some (b - 0x30)
  else if 0x41 ≤ b ∧ b ≤ 0x46 then some (b - 0x41 + 10)
  else if 0x61 ≤ b ∧ b ≤ 0x66 then some (b - 0x61 + 10)
  else none

/-- The capital hexadecimal digit of a value below sixteen. -/
def capitalHexDigit (v : UInt8) : UInt8 := if v < 10 then 0x30 + v else 0x41 + (v - 10)

/-- The small hexadecimal digit of a value below sixteen. -/
def smallHexDigit (v : UInt8) : UInt8 := if v < 10 then 0x30 + v else 0x61 + (v - 10)

/-- The bytes that a text with escapes stands for. -/
def percentDecode : List UInt8 → List UInt8
  | [] => []
  | a :: rest =>
    if a = 0x25 then
      match rest with
      | h :: l :: more =>
        match hexValue? h, hexValue? l with
        | some hi, some lo => (hi * 16 + lo) :: percentDecode more
        | _, _ => a :: percentDecode (h :: l :: more)
      | short => a :: percentDecode short
    else a :: percentDecode rest
  termination_by l => l.length

/-- The bytes with an escape for each byte outside the class `keep`. -/
def percentEncode (keep : UInt8 → Bool) : List UInt8 → List UInt8
  | [] => []
  | a :: rest =>
    if keep a then a :: percentEncode keep rest
    else 0x25 :: capitalHexDigit (a / 16) :: capitalHexDigit (a % 16) :: percentEncode keep rest

/-! ### Laws -/

/-- What holds of the numbers below a bound holds of the bytes below it. -/
theorem forall_byte_of_nat {P : UInt8 → Prop} {bound : Nat} (h : ∀ n < bound, P (UInt8.ofNat n))
    (v : UInt8) (hv : v.toNat < bound) : P v := by
  rw [← UInt8.ofNat_toNat (x := v)]
  exact h v.toNat hv

/-- What holds of the sixteen values of a digit as numbers holds of them as bytes. -/
theorem forall_digit {P : UInt8 → Prop} (h : ∀ n < 16, P (UInt8.ofNat n)) (v : UInt8)
    (hv : v < 16) : P v :=
  forall_byte_of_nat h v (UInt8.lt_iff_toNat_lt.1 hv)

theorem hexValue?_capitalHexDigit {v : UInt8} (h : v < 16) :
    hexValue? (capitalHexDigit v) = some v :=
  forall_digit (P := fun v ↦ hexValue? (capitalHexDigit v) = some v) (by decide) v h

theorem div_sixteen_lt (a : UInt8) : a / 16 < 16 := by
  rw [UInt8.lt_iff_toNat_lt, UInt8.toNat_div]
  have h := a.toNat_lt
  have h16 : (16 : UInt8).toNat = 16 := rfl
  rw [h16]; omega

theorem mod_sixteen_lt (a : UInt8) : a % 16 < 16 := by
  rw [UInt8.lt_iff_toNat_lt, UInt8.toNat_mod]
  have h16 : (16 : UInt8).toNat = 16 := rfl
  rw [h16]; omega

/-- A byte is put together from its two halves. -/
theorem div_mul_add_mod_sixteen (a : UInt8) : a / 16 * 16 + a % 16 = a := by
  apply UInt8.toNat_inj.1
  have h1 : a.toNat < 256 := a.toNat_lt
  simp only [UInt8.toNat_add, UInt8.toNat_mul, UInt8.toNat_div, UInt8.toNat_mod]
  have : (16 : UInt8).toNat = 16 := rfl
  rw [this]; omega

/-- What is written reads back, when `%` itself is escaped. -/
theorem percentDecode_percentEncode {keep : UInt8 → Bool} (h : keep 0x25 = false)
    (l : List UInt8) : percentDecode (percentEncode keep l) = l := by
  induction l with
  | nil => simp [percentEncode, percentDecode]
  | cons a rest ih =>
    rw [percentEncode]
    split
    · next hk =>
      have ha : a ≠ 0x25 := by rintro rfl; rw [h] at hk; cases hk
      rw [percentDecode.eq_def]
      simp only [if_neg ha, ih]
    · rw [percentDecode.eq_def]
      simp only [if_true, hexValue?_capitalHexDigit (div_sixteen_lt a),
        hexValue?_capitalHexDigit (mod_sixteen_lt a), ih, div_mul_add_mod_sixteen]

end ImageRegistry.Text
