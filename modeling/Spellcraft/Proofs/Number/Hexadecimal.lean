import Spellcraft.Number.Hexadecimal

set_option autoImplicit false

namespace Spellcraft.Number

theorem hexValue?_hexDigit : ∀ {n : Nat}, n < 16 → hexValue? (hexDigit n) = some n := by
  decide

@[simp] theorem length_hexDigits (count n : Nat) : (hexDigits count n).length = count := by
  induction count generalizing n with
  | zero => rfl
  | succ count ih => simp [hexDigits, ih]

theorem hexNumber?_concat (digits : List Char) (c : Char) :
    hexNumber? (digits ++ [c]) =
      (hexNumber? digits).bind fun value => (hexValue? c).map (16 * value + ·) := by
  simp [hexNumber?]

theorem hexNumber?_hexDigits {count n : Nat} (fits : n < Nat.pow 16 count) :
    hexNumber? (hexDigits count n) = some n := by
  induction count generalizing n with
  | zero =>
    obtain rfl : n = 0 := by simpa using fits
    rfl
  | succ count ih =>
    have above : n / 16 < Nat.pow 16 count :=
      Nat.div_lt_of_lt_mul (Nat.lt_of_lt_of_eq fits (Nat.mul_comm _ _))
    rw [hexDigits, hexNumber?_concat, ih above, Option.bind_some,
      hexValue?_hexDigit (Nat.mod_lt n (by decide)), Option.map_some, Nat.div_add_mod]

end Spellcraft.Number
