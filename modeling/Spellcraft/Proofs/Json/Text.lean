import Spellcraft.Json.Reader
import Spellcraft.Json.Writer
import Spellcraft.Proofs.Number.Hexadecimal

set_option autoImplicit false

namespace Spellcraft.Json

theorem escape_cases (c : Char) :
    (∃ mark, escape c = ['\\', mark] ∧ escaped? mark = some c) ∨
      (c.toNat < 0x20 ∧ escape c = '\\' :: 'u' :: Number.hexDigits 4 c.toNat) ∨
      (¬ c.toNat < 0x20 ∧ c ≠ '"' ∧ c ≠ '\\' ∧ escape c = [c]) := by
  rw [escape.eq_def]
  split
  case h_8 quote backslash _ _ _ _ _ =>
    right
    split
    · next control => exact .inl ⟨control, rfl⟩
    · next visible => exact .inr ⟨visible, quote, backslash, rfl⟩
  all_goals exact .inl ⟨_, rfl, rfl⟩

theorem readPieces_named {mark c : Char} (named : escaped? mark = some c) (rest : List Char) :
    readPieces ('\\' :: mark :: rest) =
      (readPieces rest).map fun (pieces, left) => (.char c :: pieces, left) := by
  have other : mark ≠ 'u' := by
    rintro rfl
    cases named
  rw [readPieces, named]
  · cases readPieces rest <;> rfl
  · simp [other]

theorem readPieces_unit {n : Nat} (fits : n < Nat.pow 16 4) (rest : List Char) :
    readPieces ('\\' :: 'u' :: Number.hexDigits 4 n ++ rest) =
      (readPieces rest).map fun (pieces, left) => (.unit n :: pieces, left) := by
  have digits := Number.hexNumber?_hexDigits fits
  simp only [Number.hexDigits, List.nil_append, List.cons_append] at digits ⊢
  rw [readPieces, digits]
  cases readPieces rest <;> rfl

theorem readPieces_plain {c : Char} (visible : ¬ c.toNat < 0x20) (quote : c ≠ '"')
    (backslash : c ≠ '\\') (rest : List Char) :
    readPieces (c :: rest) =
      (readPieces rest).map fun (pieces, left) => (.char c :: pieces, left) := by
  rw [readPieces, if_neg visible]
  all_goals simp [quote, backslash]

-- A unit stands only for a control character, and so never for half a pair.
theorem readPieces_escape (c : Char) : ∃ piece,
    (∀ rest, readPieces (escape c ++ rest) =
      (readPieces rest).map fun (pieces, left) => (piece :: pieces, left)) ∧
    ∀ pieces, joinPieces (piece :: pieces) = (joinPieces pieces).map (c :: ·) := by
  rcases escape_cases c with
    ⟨mark, same, named⟩ | ⟨control, same⟩ | ⟨visible, quote, backslash, same⟩
  · refine ⟨.char c, fun rest => ?_, fun pieces => rfl⟩
    rw [same]
    exact readPieces_named named rest
  · refine ⟨.unit c.toNat, fun rest => ?_, fun pieces => ?_⟩
    · rw [same]
      exact readPieces_unit (Nat.lt_trans control (by decide)) rest
    · rw [joinPieces.eq_def]
      dsimp only
      rw [if_neg (by omega), if_neg (by omega), Char.ofNat_toNat]
  · refine ⟨.char c, fun rest => ?_, fun pieces => rfl⟩
    rw [same]
    exact readPieces_plain visible quote backslash rest

theorem readPieces_escaped (text rest : List Char) :
    ∃ pieces, readPieces (text.flatMap escape ++ '"' :: rest) = some (pieces, rest) ∧
      joinPieces pieces = some text := by
  induction text with
  | nil => exact ⟨[], rfl, rfl⟩
  | cons c text ih =>
    obtain ⟨piece, reads, joins⟩ := readPieces_escape c
    obtain ⟨pieces, read, joined⟩ := ih
    refine ⟨piece :: pieces, ?_, ?_⟩
    · rw [List.flatMap_cons, List.append_assoc, reads, read]
      rfl
    · rw [joins, joined]
      rfl

theorem readText_quoted (text : String) (rest : List Char) :
    readText (text.toList.flatMap escape ++ '"' :: rest) = some (some text, rest) := by
  obtain ⟨pieces, read, joined⟩ := readPieces_escaped text.toList rest
  simp [readText, read, joined]

end Spellcraft.Json
