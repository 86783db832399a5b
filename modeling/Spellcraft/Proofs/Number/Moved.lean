import Spellcraft.Number.Bounds
import Spellcraft.Proofs.Number.Value

set_option autoImplicit false

namespace Spellcraft.Number

variable {x y : Float} {n : Int}

theorem toRat_ofNatural {n : Nat} (small : n < 2 ^ 53) : toRat (ofNatural n) = n := by
  rw [toRat, (ofNatural_rounds n).1.partsRat, size_ofNatural small]
  rfl

theorem toRat_ofInteger (small : n.natAbs < 2 ^ 53) : toRat (ofInteger n) = n := by
  rw [ofInteger]
  split
  next below =>
    rw [toRat_neg, toRat_ofNatural small, Nat.cast_natAbs, abs_of_neg below, Int.cast_neg, neg_neg]
  next above =>
    rw [toRat_ofNatural small, Nat.cast_natAbs, abs_of_nonneg (not_lt.1 above)]

theorem le_iff_toRat (finite : x.isFinite = true) (finite' : y.isFinite = true) :
    x ≤ y ↔ toRat x ≤ toRat y := by
  rw [← extent_of_finite finite, ← extent_of_finite finite']
  exact ⟨extent_le, le_of_extent (isNaN_of_isFinite finite) (isNaN_of_isFinite finite')⟩

theorem approximates_self (finite : x.isFinite = true) : Approximates x (toRat x) :=
  ⟨parts x, roundsTo_self (parts_stored x) finite, (repack_eq (parts_stored x)).symm⟩

theorem approximates_moved (finite : x.isFinite = true) (small : n.natAbs < 2 ^ 53) :
    Approximates (x + ofInteger n) (toRat x + n) := by
  rw [← toRat_ofInteger small]
  exact approximates_add finite (ofInteger_finite n)

theorem le_moved (finite : x.isFinite = true) (small : n.natAbs < 2 ^ 53) (up : 0 ≤ n) :
    x ≤ x + ofInteger n := by
  refine (approximates_self finite).le (approximates_moved finite small) ?_
  exact le_add_of_nonneg_right (by exact_mod_cast up)

theorem moved_le (finite : x.isFinite = true) (small : n.natAbs < 2 ^ 53) (down : n ≤ 0) :
    x + ofInteger n ≤ x := by
  refine (approximates_moved finite small).le (approximates_self finite) ?_
  exact add_le_of_nonpos_right (by exact_mod_cast down)

/-- The most by which a finite result of rounding is off: half of a last place. -/
def slack (q : ℚ) : ℚ :=
  |q| / 2 ^ 53 + 2 ^ (-1075 : Int)

theorem Approximates.near {q : ℚ} (approximates : Approximates x q) (finite : x.isFinite = true) :
    |toRat x - q| ≤ slack q := by
  obtain ⟨value, ⟨sign, size, above, rfl, rounds⟩, same⟩ := approximates
  change (parts x).isFinite = true at finite
  rw [same] at finite
  have near := rounds.size_near above
  rw [toRat, same, rounds.repack_of_finite finite, rounds.partsRat, slack, abs_signed,
    abs_of_nonneg above]
  cases sign with
  | positive => exact near
  | negative => rwa [signed, signed, neg_sub_neg, abs_sub_comm]

theorem moved_near (finite : x.isFinite = true) (finite' : (x + ofInteger n).isFinite = true)
    (small : n.natAbs < 2 ^ 53) :
    |toRat (x + ofInteger n) - toRat x| ≤ n.natAbs + slack (toRat x + n) := by
  have near := (approximates_moved finite small).near finite'
  have whole : |(n : ℚ)| = n.natAbs := by rw [Nat.cast_natAbs, Int.cast_abs]
  calc |toRat (x + ofInteger n) - toRat x|
      = |toRat (x + ofInteger n) - (toRat x + n) + n| := by congr 1; ring
    _ ≤ |toRat (x + ofInteger n) - (toRat x + n)| + |(n : ℚ)| := abs_add_le ..
    _ ≤ n.natAbs + slack (toRat x + n) := by linarith

theorem toRat_least (finite : x.isFinite = true) (finite' : y.isFinite = true) :
    toRat (least x y) = min (toRat x) (toRat y) := by
  rw [least, isNaN_of_isFinite finite, Bool.false_or]
  simp only [decide_eq_true_eq, le_iff_toRat finite' finite]
  split
  next below => exact (min_eq_right below).symm
  next above => exact (min_eq_left (le_of_not_ge above)).symm

theorem least_le_left (finite : x.isFinite = true) (finite' : y.isFinite = true) :
    least x y ≤ x := by
  have shorter : (least x y).isFinite = true := isFinite_least finite finite'
  rw [le_iff_toRat shorter finite, toRat_least finite finite']
  exact min_le_left _ _

-- A ceiling above the value can only shorten a move.
theorem least_near {z : Float} (finite : x.isFinite = true) (finite' : y.isFinite = true)
    (finite'' : z.isFinite = true) (below : x ≤ y) :
    |toRat (least z y) - toRat x| ≤ |toRat z - toRat x| := by
  rw [le_iff_toRat finite finite'] at below
  rw [toRat_least finite'' finite']
  rcases le_total (toRat z) (toRat y) with inside | outside
  · rw [min_eq_left inside]
  · rw [min_eq_right outside, abs_of_nonneg (by linarith), abs_of_nonneg (by linarith)]
    linarith

end Spellcraft.Number
