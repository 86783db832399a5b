import Spellcraft.Digest
import Spellcraft.Proofs.Number.Hexadecimal

set_option autoImplicit false

namespace Spellcraft

namespace Number

theorem hexDigits_lower {count n : Nat} {c : Char} (member : c ∈ hexDigits count n) :
    c ∈ "0123456789abcdef".toList := by
  have digit : ∀ {n : Nat}, n < 16 → hexDigit n ∈ "0123456789abcdef".toList := by decide
  induction count generalizing n with
  | zero => simp [hexDigits] at member
  | succ count ih =>
    rcases List.mem_append.1 member with earlier | last
    · exact ih earlier
    · rw [List.mem_singleton.1 last]
      exact digit (Nat.mod_lt n (by decide))

theorem hexDigits_inj {count left right : Nat} (left_fits : left < Nat.pow 16 count)
    (right_fits : right < Nat.pow 16 count) (same : hexDigits count left = hexDigits count right) :
    left = right := by
  have read := hexNumber?_hexDigits left_fits
  rw [same, hexNumber?_hexDigits right_fits] at read
  exact (Option.some.inj read).symm

end Number

namespace Digest

def hexText (bytes : List UInt8) : String :=
  String.ofList (bytes.flatMap fun byte => Number.hexDigits 2 byte.toNat)

def Chain.bytes (chain : Chain) : List UInt8 :=
  chain.words.flatMap fun word => bigEndian 4 word.toNat

def bytesOf (text : String) : List UInt8 :=
  (ofBytes text.toUTF8.data.toList).bytes

@[simp] theorem length_bigEndian (count n : Nat) : (bigEndian count n).length = count := by
  induction count generalizing n with
  | zero => rfl
  | succ count ih => simp [bigEndian, ih]

@[simp] theorem Chain.length_bytes (chain : Chain) : chain.bytes.length = 32 := by
  simp [bytes, words]

theorem hexDigits_bigEndian (count n : Nat) : Number.hexDigits (2 * count) n =
    (bigEndian count n).flatMap fun byte => Number.hexDigits 2 byte.toNat := by
  induction count generalizing n with
  | zero => rfl
  | succ count ih =>
    have high : n % 256 / 16 % 16 = n / 16 % 16 := by omega
    have low : n % 256 % 16 = n % 16 := by omega
    have rest : n / 16 / 16 = n / 256 := by omega
    rw [bigEndian, List.flatMap_append, ← ih]
    simp [Nat.mul_add, Number.hexDigits, high, low, rest]

theorem hexText_bytes (chain : Chain) : hexText chain.bytes = chain.hex := by
  have digits (word : UInt32) := hexDigits_bigEndian 4 word.toNat
  simp only [hexText, Chain.bytes, Chain.hex, List.flatMap_assoc, ← digits]

theorem hexText_lower {bytes : List UInt8} {c : Char} (member : c ∈ (hexText bytes).toList) :
    c ∈ "0123456789abcdef".toList := by
  rw [hexText, String.toList_ofList, List.mem_flatMap] at member
  obtain ⟨byte, -, digit⟩ := member
  exact Number.hexDigits_lower digit

theorem hexText_inj {left right : List UInt8} : hexText left = hexText right ↔ left = right := by
  refine ⟨fun same => ?_, congrArg hexText⟩
  rw [hexText, hexText, String.ofList_inj] at same
  induction left generalizing right with
  | nil =>
    cases right with
    | nil => rfl
    | cons other others => simp [Number.hexDigits] at same
  | cons byte rest ih =>
    cases right with
    | nil => simp [Number.hexDigits] at same
    | cons other others =>
      rw [List.flatMap_cons, List.flatMap_cons] at same
      obtain ⟨digits, later⟩ := List.append_inj same (by simp)
      have first := Number.hexDigits_inj byte.toNat_lt other.toNat_lt digits
      rw [UInt8.toNat_inj.1 first, ih later]

theorem ofText_eq_hexText (text : String) : ofText text = hexText (bytesOf text) :=
  (hexText_bytes _).symm

end Digest

end Spellcraft
