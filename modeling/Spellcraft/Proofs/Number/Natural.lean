import Mathlib.Data.List.Basic
import Mathlib.Data.List.Induction
import Mathlib.Data.Nat.Digits.Defs
import Spellcraft.Number.Layout
import Spellcraft.Number.Literal

set_option autoImplicit false

namespace Spellcraft.Number

def digitWorth (c : Char) : Nat :=
  c.toNat - '0'.toNat

structure Writes (text : List Char) (n : Nat) : Prop where
  nonempty : text ≠ []
  digits : ∀ c ∈ text, c.isDigit = true
  worth : Nat.ofDigits 10 (text.reverse.map digitWorth) = n

theorem digitsValue_concat (text : List Char) (c : Char) :
    digitsValue (text ++ [c]) = 10 * digitsValue text + digitWorth c := by
  simp [digitsValue, digitWorth]

theorem digitsValue_eq_ofDigits (text : List Char) :
    digitsValue text = Nat.ofDigits 10 (text.reverse.map digitWorth) := by
  induction text using List.reverseRecOn with
  | nil => rfl
  | append_singleton text c ih =>
    rw [digitsValue_concat, ih, List.reverse_append, List.reverse_singleton, List.singleton_append,
      List.map_cons, Nat.ofDigits_cons, Nat.add_comm]

theorem natural?_eq_some {text : List Char} {n : Nat} : natural? text = some n ↔ Writes text n := by
  by_cases readable : text ≠ [] ∧ text.all Char.isDigit = true
  · have value : natural? text = some (digitsValue text) := by simp [natural?, readable]
    rw [value, Option.some.injEq, digitsValue_eq_ofDigits]
    exact ⟨fun worth => ⟨readable.1, List.all_eq_true.1 readable.2, worth⟩, Writes.worth⟩
  · have unread : natural? text = none := by
      rw [natural?, if_pos]
      simpa [Classical.or_iff_not_imp_left] using readable
    rw [unread]
    simp only [reduceCtorEq, false_iff]
    exact fun writes => readable ⟨writes.nonempty, List.all_eq_true.2 writes.digits⟩

theorem word32?_eq_some {text : List Char} {word : UInt32} :
    word32? text = some word ↔ Writes text word.toNat := by
  simp only [word32?, Option.bind_eq_some_iff, natural?_eq_some]
  constructor
  · rintro ⟨n, writes, fits⟩
    split at fits
    · next small =>
      cases fits
      rwa [Nat.toUInt32, UInt32.toNat_ofNat_of_lt' small]
    · cases fits
  · intro writes
    exact ⟨word.toNat, writes, by rw [if_pos word.toNat_lt]; simp⟩

theorem naturalText_digits {n : Nat} : ∀ c ∈ naturalText n, c.isDigit = true :=
  fun _ => Nat.isDigit_of_mem_toDigits (by decide) (by decide)

theorem naturalText_ne_nil (n : Nat) : naturalText n ≠ [] :=
  Nat.toDigits_ne_nil

theorem naturalText_head {n : Nat} (positive : 0 < n) : ∀ c ∈ (naturalText n).head?, c ≠ '0' := by
  induction n using Nat.strongRecOn with
  | ind n ih =>
    rw [naturalText]
    by_cases small : n < 10
    · rw [Nat.toDigits_of_lt_base small]
      have leading : ∀ digit, digit < 10 → 0 < digit → Nat.digitChar digit ≠ '0' := by decide
      rintro c ⟨⟩
      exact leading n small positive
    · rw [Nat.toDigits_of_base_le (by decide) (Nat.not_lt.1 small),
        List.head?_append_of_ne_nil _ Nat.toDigits_ne_nil]
      exact ih (n / 10) (by omega) (by omega)

end Spellcraft.Number
