import Mathlib
import Spellcraft.Number.Bounds

set_option autoImplicit false

namespace Spellcraft.Number

open Float.Model (UnpackedFloat)

-- Exponents are compared before mantissas, and both the other way round below zero.
def partsRank : UnpackedFloat → Option (Int ×ₗ Int ×ₗ Int)
  | .notANumber => none
  | .infinity .negative => some (toLex (-2, toLex (0, 0)))
  | .finite .negative mantissa exponent _ => some (toLex (-1, toLex (-exponent, -mantissa)))
  | .zero _ => some (toLex (0, toLex (0, 0)))
  | .finite .positive mantissa exponent _ => some (toLex (1, toLex (exponent, mantissa)))
  | .infinity .positive => some (toLex (2, toLex (0, 0)))

theorem then_eq_lt {exponent exponent' : Int} {mantissa mantissa' : Nat} :
    (compare exponent exponent').then (compare mantissa mantissa') = .lt ↔
      exponent < exponent' ∨ exponent = exponent' ∧ mantissa < mantissa' := by
  rcases lt_trichotomy exponent exponent' with below | same | above
  · simp [compare_lt_iff_lt.2 below, below]
  · simp [same, compare_lt_iff_lt]
  · simp [compare_gt_iff_gt.2 above, above.not_gt, above.ne']

theorem then_eq_gt {exponent exponent' : Int} {mantissa mantissa' : Nat} :
    (compare exponent exponent').then (compare mantissa mantissa') = .gt ↔
      exponent' < exponent ∨ exponent = exponent' ∧ mantissa' < mantissa := by
  rcases lt_trichotomy exponent exponent' with below | same | above
  · simp [compare_lt_iff_lt.2 below, below.not_gt, below.ne]
  · simp [same, compare_gt_iff_gt]
  · simp [compare_gt_iff_gt.2 above, above]

theorem parts_lt_iff (left right : UnpackedFloat) :
    left.lt right = true ↔
      ∃ low high, partsRank left = some low ∧ partsRank right = some high ∧ low < high := by
  rcases left with (_ | _) | _ | _ | ⟨_ | _, mantissa, exponent, _⟩ <;>
    rcases right with (_ | _) | _ | _ | ⟨_ | _, mantissa', exponent', _⟩ <;>
    simp [UnpackedFloat.lt, UnpackedFloat.compare, partsRank, Prod.Lex.toLex_lt_toLex, then_eq_lt,
      then_eq_gt]
  all_goals decide

theorem parts_le_iff (left right : UnpackedFloat) :
    left.le right = true ↔
      ∃ low high, partsRank left = some low ∧ partsRank right = some high ∧ low ≤ high := by
  rcases left with (_ | _) | _ | _ | ⟨_ | _, mantissa, exponent, _⟩ <;>
    rcases right with (_ | _) | _ | _ | ⟨_ | _, mantissa', exponent', _⟩ <;>
    simp [UnpackedFloat.le, UnpackedFloat.compare, partsRank, Prod.Lex.toLex_le_toLex,
      Ordering.isLE_iff_ne_gt, Ordering.isGE_iff_ne_lt, then_eq_lt, then_eq_gt]
  all_goals first | decide | omega

def parts (x : Float) : UnpackedFloat :=
  x.toModel.unpack

def rank (x : Float) : Option (Int ×ₗ Int ×ₗ Int) :=
  partsRank (parts x)

variable {x y z low high : Float}

theorem lt_iff : x < y ↔ ∃ low high, rank x = some low ∧ rank y = some high ∧ low < high := by
  rw [rank, rank, ← parts_lt_iff]
  exact decide_eq_true_iff

theorem le_iff : x ≤ y ↔ ∃ low high, rank x = some low ∧ rank y = some high ∧ low ≤ high := by
  rw [rank, rank, ← parts_le_iff]
  exact decide_eq_true_iff

theorem isNaN_eq_false : x.isNaN = false ↔ ∃ value, rank x = some value := by
  change (parts x).isNaN = false ↔ _
  rw [rank]
  rcases parts x with (_ | _) | _ | _ | ⟨_ | _, mantissa, exponent, _⟩ <;>
    simp [UnpackedFloat.isNaN, partsRank]

theorem le_refl (number : x.isNaN = false) : x ≤ x := by
  obtain ⟨value, ranked⟩ := isNaN_eq_false.1 number
  exact le_iff.2 ⟨value, value, ranked, ranked, le_rfl⟩

theorem le_trans (left : x ≤ y) (right : y ≤ z) : x ≤ z := by
  obtain ⟨first, second, ranked, middle, before⟩ := le_iff.1 left
  obtain ⟨second', third, middle', ranked', after⟩ := le_iff.1 right
  obtain rfl : second = second' := Option.some.inj (middle.symm.trans middle')
  exact le_iff.2 ⟨first, third, ranked, ranked', before.trans after⟩

theorem lt_of_lt_of_le (left : x < y) (right : y ≤ z) : x < z := by
  obtain ⟨first, second, ranked, middle, before⟩ := lt_iff.1 left
  obtain ⟨second', third, middle', ranked', after⟩ := le_iff.1 right
  obtain rfl : second = second' := Option.some.inj (middle.symm.trans middle')
  exact lt_iff.2 ⟨first, third, ranked, ranked', before.trans_le after⟩

theorem le_of_lt (below : x < y) : x ≤ y := by
  obtain ⟨first, second, ranked, ranked', before⟩ := lt_iff.1 below
  exact le_iff.2 ⟨first, second, ranked, ranked', before.le⟩

theorem number_of_le (below : x ≤ y) : x.isNaN = false ∧ y.isNaN = false := by
  obtain ⟨first, second, ranked, ranked', -⟩ := le_iff.1 below
  exact ⟨isNaN_eq_false.2 ⟨first, ranked⟩, isNaN_eq_false.2 ⟨second, ranked'⟩⟩

theorem le_of_not_lt (number : x.isNaN = false) (number' : y.isNaN = false) (not_below : ¬ x < y) :
    y ≤ x := by
  obtain ⟨first, ranked⟩ := isNaN_eq_false.1 number
  obtain ⟨second, ranked'⟩ := isNaN_eq_false.1 number'
  refine le_iff.2 ⟨second, first, ranked', ranked, le_of_not_gt fun before => not_below ?_⟩
  exact lt_iff.2 ⟨first, second, ranked, ranked', before⟩

theorem lt_of_not_le (number : x.isNaN = false) (number' : y.isNaN = false) (not_below : ¬ x ≤ y) :
    y < x := by
  obtain ⟨first, ranked⟩ := isNaN_eq_false.1 number
  obtain ⟨second, ranked'⟩ := isNaN_eq_false.1 number'
  refine lt_iff.2 ⟨second, first, ranked', ranked, lt_of_not_ge fun before => not_below ?_⟩
  exact le_iff.2 ⟨first, second, ranked, ranked', before⟩

theorem lt_irrefl : ¬ x < x := by
  intro below
  obtain ⟨first, second, ranked, ranked', before⟩ := lt_iff.1 below
  obtain rfl : first = second := Option.some.inj (ranked.symm.trans ranked')
  exact before.ne rfl

-- Doubles that are equal are one double, or the two zeros, which are of one rank.
theorem rank_of_beq (same : x == y) : rank x = rank y := by
  obtain ⟨-, -, rfl | ⟨rfl, rfl⟩ | ⟨rfl, rfl⟩⟩ := Float.beq_iff_ne_nan_and_eq.1 same
  · rfl
  · decide
  · decide

theorem bne_of_lt (below : x < y) : (x != y) = true ∧ (y != x) = true := by
  obtain ⟨first, second, ranked, ranked', before⟩ := lt_iff.1 below
  have apart : rank x ≠ rank y := by
    rw [ranked, ranked']
    exact fun same => before.ne (Option.some.inj same)
  constructor
  · simpa [bne] using fun same : (x == y) = true => apart (rank_of_beq same)
  · simpa [bne] using fun same : (y == x) = true => apart (rank_of_beq same).symm

theorem le_max_of_le_left (below : x ≤ y) : x ≤ max y z := by
  change x ≤ if y ≤ z then z else y
  split
  next further => exact le_trans below further
  next => exact below

theorem le_max_of_le_right (number : y.isNaN = false) (below : x ≤ z) : x ≤ max y z := by
  change x ≤ if y ≤ z then z else y
  split
  next => exact below
  next above =>
    have least := le_of_lt (lt_of_not_le number (number_of_le below).2 above)
    exact le_trans below least

theorem least_le (number : y.isNaN = false) : least x y ≤ y := by
  by_cases capped : (x.isNaN || y ≤ x) = true
  · rw [least, if_pos capped]
    exact le_refl number
  · obtain ⟨number', below⟩ : x.isNaN = false ∧ ¬ y ≤ x := by simpa using capped
    rw [least, if_neg capped]
    exact le_of_lt (lt_of_not_le number number' below)

theorem le_least (left : low ≤ x) (right : low ≤ y) : low ≤ least x y := by
  rw [least]
  split
  · exact right
  · exact left

theorem le_confine (range : low ≤ high) (number : x.isNaN = false) : low ≤ confine low high x := by
  have raised : low ≤ if x < low then low else x := by
    split
    next => exact le_refl (number_of_le range).1
    next above => exact le_of_not_lt number (number_of_le range).1 above
  simp only [confine]
  generalize (if x < low then low else x) = value at raised ⊢
  split
  next => exact range
  next => exact raised

theorem confine_le (range : low ≤ high) (number : x.isNaN = false) : confine low high x ≤ high := by
  have raised : (if x < low then low else x).isNaN = false := by
    split
    next => exact (number_of_le range).1
    next => exact number
  simp only [confine]
  generalize (if x < low then low else x) = value at raised ⊢
  split
  next => exact le_refl (number_of_le range).2
  next below => exact le_of_not_lt (number_of_le range).2 raised below

theorem confine_moves (range : low ≤ high) (x : Float) :
    confine low high x = x ∨ (confine low high x != x) = true := by
  have not_empty : ¬ high < low := fun empty => lt_irrefl (lt_of_lt_of_le empty range)
  simp only [confine]
  by_cases below : x < low
  · rw [if_pos below, if_neg not_empty]
    exact .inr (bne_of_lt below).2
  · rw [if_neg below]
    split
    next above => exact .inr (bne_of_lt above).1
    next => exact .inl rfl

end Spellcraft.Number
