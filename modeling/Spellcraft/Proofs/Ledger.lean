import Spellcraft.Ledger

set_option autoImplicit false

namespace Spellcraft.Ledger

theorem min_eq (left right : UInt32) : min left right = if left ≤ right then left else right := rfl

theorem min_le (left right : UInt32) : min left right ≤ right := by
  rw [min_eq]
  split
  · assumption
  · exact UInt32.le_refl _

theorem ofBalance_energy_le (limits : Limits) (balance : Balance) :
    (ofBalance limits balance).energy ≤ limits.capacity :=
  min_le _ _

theorem regenerate_energy_le (ledger : Ledger) :
    ledger.regenerate.energy ≤ ledger.limits.capacity :=
  min_le _ _

theorem spend_energy_le (ledger : Ledger) (cost : UInt32) :
    (ledger.spend cost).energy ≤ ledger.energy := by
  have below := ledger.energy.toNat_lt
  rw [UInt32.le_iff_toNat_le]
  simp only [spend, UInt32.toNat_ofNat']
  omega

theorem min_toNat (left right : UInt32) : (min left right).toNat = min left.toNat right.toNat := by
  rw [min_eq, Nat.min_def]
  simp only [UInt32.le_iff_toNat_le]
  split
  · rfl
  · rfl

def regained (ledger : Ledger) : Nat :=
  min ledger.limits.regenStep.toNat (ledger.limits.capacity.toNat - ledger.energy.toNat)

theorem regenerate_energy {ledger : Ledger} (within : ledger.energy ≤ ledger.limits.capacity) :
    ledger.regenerate.energy.toNat = ledger.energy.toNat + ledger.regained := by
  have bound := ledger.limits.capacity.toNat_lt
  rw [UInt32.le_iff_toNat_le] at within
  simp only [regenerate, regained, min_toNat, Number.capped32_toNat]
  omega

theorem spend_energy {ledger : Ledger} {cost : UInt32} (affordable : ledger.affords cost = true) :
    (ledger.spend cost).energy.toNat + cost.toNat = ledger.energy.toNat := by
  have bound := ledger.energy.toNat_lt
  have within : cost ≤ ledger.energy := by simpa [affords] using affordable
  rw [UInt32.le_iff_toNat_le] at within
  simp only [spend, UInt32.toNat_ofNat']
  omega

theorem ofBalance_balance {ledger : Ledger} (within : ledger.energy ≤ ledger.limits.capacity) :
    ofBalance ledger.limits ledger.balance = ledger := by
  simp [ofBalance, balance, min_eq, within]

end Spellcraft.Ledger
