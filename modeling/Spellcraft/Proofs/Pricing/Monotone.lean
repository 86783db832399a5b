import Spellcraft.Proofs.Number.Monotone
import Spellcraft.Proofs.Pricing.Total
import Spellcraft.Proofs.Spell

set_option autoImplicit false

namespace Spellcraft

def Spell.withRadius (spell : Spell) (radius : Float) : Spell :=
  { spell with anchor := { spell.anchor with
      parameters := spell.anchor.parameters.insert "radius" (.number radius) } }

namespace Rates

open Number

section Products

variable {amount more rate higher factor greater low high : Float}

theorem units_le (below : 0.0 < low → low ≤ high) : units low ≤ units high := by
  by_cases nothing : (low.isNaN || low ≤ 0.0) = true
  · rw [units, if_pos nothing]
    exact UInt64.zero_le
  · obtain ⟨number, above⟩ : low.isNaN = false ∧ ¬ low ≤ 0.0 := by simpa using nothing
    have positive : 0.0 < low := lt_of_not_le number (by decide) above
    have positive' : 0.0 < high := lt_of_lt_of_le positive (below positive)
    have something : ¬ (high.isNaN || high ≤ 0.0) = true := by
      rw [(zero_lt_iff.1 positive').1, Bool.false_or, decide_eq_true_iff]
      exact fun least => lt_irrefl (lt_of_lt_of_le positive' least)
    rw [units, units, if_neg nothing, if_neg something]
    exact wholeAbove_le (sub_le_sub_right positive (by decide) (below positive))

-- Two negative factors give the product of the positive ones.
theorem mul_neg_mul_neg (amount rate factor : Float) :
    amount * -rate * -factor = amount * rate * factor := by
  rw [Number.mul_neg, Number.mul_neg, Number.neg_mul, Number.neg_neg]

theorem positive_product (natural : ¬ 0.0 < -amount) (positive : 0.0 < amount * rate * factor) :
    0.0 < amount ∧ (0.0 < rate ∧ 0.0 < amount * rate ∧ 0.0 < factor ∨
      0.0 < -rate ∧ 0.0 < amount * -rate ∧ 0.0 < -factor) := by
  rcases mul_pos_cases positive with ⟨base, above⟩ | ⟨base, below⟩
  · obtain ⟨some, upward⟩ := (mul_pos_cases base).resolve_right fun negative => natural negative.1
    exact ⟨some, .inl ⟨upward, base, above⟩⟩
  · rw [← Number.mul_neg] at base
    obtain ⟨some, downward⟩ := (mul_pos_cases base).resolve_right fun negative => natural negative.1
    exact ⟨some, .inr ⟨downward, base, below⟩⟩

theorem mul_le_of_amount (natural : ¬ 0.0 < -amount) (below : amount ≤ more)
    (positive : 0.0 < amount * rate * factor) : amount * rate * factor ≤ more * rate * factor := by
  obtain ⟨some, ⟨upward, base, above⟩ | ⟨downward, base, above⟩⟩ :=
    positive_product natural positive
  · exact mul_le_mul_right base above (mul_le_mul_right some upward below)
  · rw [← mul_neg_mul_neg amount, ← mul_neg_mul_neg more]
    exact mul_le_mul_right base above (mul_le_mul_right some downward below)

theorem positive_product_of_rate (natural : ¬ 0.0 < -amount) (rated : 0.0 ≤ rate)
    (positive : 0.0 < amount * rate * factor) :
    0.0 < amount ∧ 0.0 < rate ∧ 0.0 < amount * rate ∧ 0.0 < factor := by
  obtain ⟨some, charged | ⟨downward, -⟩⟩ := positive_product natural positive
  · exact ⟨some, charged⟩
  · have below := (zero_lt_iff.1 downward).2
    rw [extent_neg] at below
    exact absurd (extent_le rated) (neg_pos.1 below).not_ge

theorem mul_le_of_rate (natural : ¬ 0.0 < -amount) (rated : 0.0 ≤ rate) (below : rate ≤ higher)
    (positive : 0.0 < amount * rate * factor) :
    amount * rate * factor ≤ amount * higher * factor := by
  obtain ⟨some, upward, base, above⟩ := positive_product_of_rate natural rated positive
  refine mul_le_mul_right base above ?_
  rw [Number.mul_comm amount rate, Number.mul_comm amount higher]
  exact mul_le_mul_right upward some below

theorem mul_le_of_factor (natural : ¬ 0.0 < -amount) (rated : 0.0 ≤ rate)
    (below : 0.0 < factor → factor ≤ greater) (positive : 0.0 < amount * rate * factor) :
    amount * rate * factor ≤ amount * rate * greater := by
  obtain ⟨-, -, base, above⟩ := positive_product_of_rate natural rated positive
  rw [Number.mul_comm _ factor, Number.mul_comm _ greater]
  exact mul_le_mul_right above base (below above)

theorem units_scaled_le {total other : UInt64} (fewer : total ≤ other) (factor : Float) :
    units (total.toFloat * factor) ≤ units (other.toFloat * factor) := by
  refine units_le fun positive => ?_
  obtain ⟨some, above⟩ := (mul_pos_cases positive).resolve_right fun negative =>
    toFloat_not_negative total negative.1
  exact mul_le_mul_right some above (toFloat_le fewer)

end Products

section Charges

variable {rates : Rates} {spell other : Spell} {total greater : UInt64}

theorem discount_le (fewer : total ≤ greater) (spell : Spell) :
    rates.discount spell total ≤ rates.discount spell greater := by
  simp only [discount]
  split
  · exact units_scaled_le fewer _
  · exact fewer

theorem surcharge_le (fewer : total ≤ greater) (spell : Spell) :
    rates.surcharge spell total ≤ rates.surcharge spell greater := by
  simp only [surcharge]
  split
  · exact units_scaled_le fewer _
  · exact fewer

structure Cheaper (rates : Rates) (spell other : Spell) : Prop where
  charge : rates.charge spell ≤ rates.charge other
  isPrivileged : spell.isPrivileged = other.isPrivileged
  keywords : spell.keywords = other.keywords

theorem Cheaper.refl (rates : Rates) (spell : Spell) : rates.Cheaper spell spell :=
  ⟨UInt64.le_refl _, rfl, rfl⟩

theorem Cheaper.addSpell_le (cheaper : rates.Cheaper spell other) (fewer : total ≤ greater) :
    rates.addSpell total spell ≤ rates.addSpell greater other := by
  have sums : capped64 (total.toNat + (rates.charge spell).toNat) ≤
      capped64 (greater.toNat + (rates.charge other).toNat) := by
    have charges := UInt64.le_iff_toNat_le.1 cheaper.charge
    have totals := UInt64.le_iff_toNat_le.1 fewer
    rw [UInt64.le_iff_toNat_le, capped64_toNat, capped64_toNat]
    omega
  have adjusted (total : UInt64) : rates.surcharge spell (rates.discount spell total) =
      rates.surcharge other (rates.discount other total) := by
    unfold surcharge discount Spell.carries
    rw [cheaper.isPrivileged, cheaper.keywords]
  rw [addSpell, addSpell, adjusted]
  exact surcharge_le (discount_le sums other) other

theorem foldl_addSpell_le (fewer : total ≤ greater) (spells : List Spell) :
    spells.foldl rates.addSpell total ≤ spells.foldl rates.addSpell greater := by
  induction spells generalizing total greater with
  | nil => exact fewer
  | cons spell rest ih => exact ih ((Cheaper.refl rates spell).addSpell_le fewer)

theorem Cheaper.price_le (cheaper : rates.Cheaper spell other) (before after : List Spell) :
    rates.price (before ++ spell :: after) ≤ rates.price (before ++ other :: after) := by
  have totals := @foldl_addSpell_le rates _ _
    (cheaper.addSpell_le (UInt64.le_refl (before.foldl rates.addSpell 0))) after
  rw [UInt64.le_iff_toNat_le] at totals
  rw [price, price, UInt32.le_iff_toNat_le, bill_total, bill_total]
  simp only [List.foldl_append, List.foldl_cons]
  omega

theorem Cheaper.entry_le (cheaper : rates.Cheaper spell other) :
    rates.entry spell ≤ rates.entry other := by
  have charges := UInt64.le_iff_toNat_le.1 cheaper.charge
  rw [UInt32.le_iff_toNat_le, entry_toNat, entry_toNat]
  omega

theorem amount_not_negative (spell : Spell) : ¬ 0.0 < -spell.shift.amount.toFloat := by
  rw [← toFloat_toUInt64]
  exact toFloat_not_negative _

theorem cheaper_of_amount {amount : UInt32} (more : spell.shift.amount ≤ amount) :
    rates.Cheaper spell { spell with shift := { spell.shift with amount } } := by
  have widened : spell.shift.amount.toUInt64 ≤ amount.toUInt64 := more
  have amounts : spell.shift.amount.toFloat ≤ amount.toFloat := by
    rw [← toFloat_toUInt64, ← toFloat_toUInt64]
    exact toFloat_le widened
  refine ⟨?_, rfl, rfl⟩
  rw [charge, charge]
  exact units_le (mul_le_of_amount (amount_not_negative spell) amounts)

theorem cheaper_of_focus {focus : Focus} (rated : 0.0 ≤ rates.ofFocus spell.focus)
    (dearer : rates.ofFocus spell.focus ≤ rates.ofFocus focus) :
    rates.Cheaper spell { spell with focus } := by
  refine ⟨?_, rfl, rfl⟩
  rw [charge, charge]
  exact units_le (mul_le_of_rate (amount_not_negative spell) rated dearer)

def radius (rates : Rates) (anchor : Anchor) : Float :=
  anchor.radius?.getD rates.defaultRadius

theorem anchorFactor_le {anchor other : Anchor} (scale : 0.0 ≤ rates.zonePerRadius)
    (same : anchor.kind = other.kind) (finite : (rates.radius anchor).isFinite = true)
    (finite' : (rates.radius other).isFinite = true)
    (wider : rates.radius anchor ≤ rates.radius other)
    (positive : 0.0 < rates.anchorFactor anchor) :
    rates.anchorFactor anchor ≤ rates.anchorFactor other := by
  have number := (zero_lt_iff.1 positive).1
  cases kind : anchor.kind with
  | caster | object =>
    have equal : rates.anchorFactor other = rates.anchorFactor anchor := by
      simp only [anchorFactor, ← same, kind]
    rw [equal]
    exact le_refl number
  | zone =>
    have factor (anchor : Anchor) (kind : anchor.kind = .zone) : rates.anchorFactor anchor =
        rates.zonePerRadius * rates.radius anchor + rates.zoneBase := by
      rw [Number.add_comm]
      simp only [anchorFactor, kind]
      rfl
    rw [factor anchor kind] at positive ⊢
    rw [factor other (same ▸ kind)]
    have above := aboveLeast_of_add positive
    have above_base := aboveLeast_of_add (Number.add_comm _ rates.zoneBase ▸ positive)
    exact add_le_add_right above above_base (mul_le_mul_left scale finite finite' wider above)

theorem radius_withRadius (spell : Spell) (radius : Float) :
    rates.radius (spell.withRadius radius).anchor = radius := by
  simp [Rates.radius, Spell.withRadius, Anchor.radius?, ParameterValue.number?]

theorem cheaper_of_radius {radius : Float} (rated : 0.0 ≤ rates.ofFocus spell.focus)
    (scale : 0.0 ≤ rates.zonePerRadius) (finite : (rates.radius spell.anchor).isFinite = true)
    (finite' : radius.isFinite = true) (wider : rates.radius spell.anchor ≤ radius) :
    rates.Cheaper spell (spell.withRadius radius) := by
  refine ⟨?_, rfl, rfl⟩
  rw [charge, charge]
  refine units_le (mul_le_of_factor (amount_not_negative spell) rated ?_)
  exact anchorFactor_le scale rfl finite ((radius_withRadius spell radius).symm ▸ finite')
    ((radius_withRadius spell radius).symm ▸ wider)

end Charges

theorem price_monotone (rates : Rates) (before after : List Spell) (spell : Spell) :
    (∀ amount, spell.shift.amount ≤ amount →
      let raised := { spell with shift := { spell.shift with amount } }
      rates.price (before ++ spell :: after) ≤ rates.price (before ++ raised :: after) ∧
      ∃ first entry raisedEntry rest, first.length = before.length ∧
        (rates.bill (before ++ spell :: after)).perSpell = first ++ entry :: rest ∧
        (rates.bill (before ++ raised :: after)).perSpell = first ++ raisedEntry :: rest ∧
        entry ≤ raisedEntry) ∧
    ((∀ focus, 0.0 ≤ rates.ofFocus focus) → 0.0 ≤ rates.zonePerRadius →
      (∀ focus, rates.ofFocus spell.focus ≤ rates.ofFocus focus →
        rates.price (before ++ spell :: after) ≤
          rates.price (before ++ { spell with focus } :: after)) ∧
      ∀ radius, (rates.radius spell.anchor).isFinite = true → radius.isFinite = true →
        rates.radius spell.anchor ≤ radius →
        rates.price (before ++ spell :: after) ≤
          rates.price (before ++ spell.withRadius radius :: after)) := by
  refine ⟨fun amount more => ?_, fun rated scale => ⟨fun focus dearer => ?_, ?_⟩⟩
  · have cheaper := @cheaper_of_amount rates spell amount more
    refine ⟨cheaper.price_le before after, before.map rates.entry, _, _, after.map rates.entry,
      List.length_map .., ?_, ?_, cheaper.entry_le⟩
    · rw [bill_perSpell, List.map_append, List.map_cons]
    · rw [bill_perSpell, List.map_append, List.map_cons]
  · exact (cheaper_of_focus (rated spell.focus) dearer).price_le before after
  · intro radius finite finite' wider
    exact (cheaper_of_radius (rated spell.focus) scale finite finite' wider).price_le before after

-- With a discount behind, which is given on all that was charged before it.
theorem price_monotone_zone :
    let zone : Spell := ⟨.energy, .ofKind .zone, ⟨.increase, 15⟩, 0, "", true, true, false, []⟩
    let void : Spell :=
      ⟨.energy, .ofKind .caster, ⟨.increase, 3⟩, 0, "", true, true, true, [.voidManifest]⟩
    let raised : Spell := { zone with shift := ⟨.increase, 40⟩ }
    let rates : Rates := {}
    ((15 : UInt32) ≤ 40 ∧ (∀ focus, 0.0 ≤ rates.ofFocus focus) ∧ 0.0 ≤ rates.zonePerRadius ∧
      rates.ofFocus .energy ≤ rates.ofFocus .time ∧ (rates.radius zone.anchor).isFinite = true ∧
      (6.0 : Float).isFinite = true ∧ rates.radius zone.anchor ≤ 6.0) ∧
    rates.price [zone, void] = 8 ∧ rates.price [zone, void] ≤ rates.price [raised, void] ∧
      rates.price [zone, void] ≤ rates.price [{ zone with focus := .time }, void] ∧
      rates.price [zone, void] ≤ rates.price [zone.withRadius 6.0, void] := by
  intro zone void raised rates
  have more : (15 : UInt32) ≤ 40 := by decide
  have rated : ∀ focus, 0.0 ≤ rates.ofFocus focus := by
    intro focus
    cases focus <;> decide
  have scale : 0.0 ≤ rates.zonePerRadius := by decide
  have dearer : rates.ofFocus .energy ≤ rates.ofFocus .time := by decide
  have finite : (rates.radius zone.anchor).isFinite = true := by decide
  have finite' : (6.0 : Float).isFinite = true := by decide
  have wider : rates.radius zone.anchor ≤ 6.0 := by decide
  have charged : rates.price [zone, void] = 8 := by decide +kernel
  obtain ⟨amounts, others⟩ := price_monotone rates [] [void] zone
  obtain ⟨focuses, radii⟩ := others rated scale
  exact ⟨⟨more, rated, scale, dearer, finite, finite', wider⟩, charged, (amounts 40 more).1,
    focuses .time dearer, radii 6.0 finite finite' wider⟩

end Rates

end Spellcraft
