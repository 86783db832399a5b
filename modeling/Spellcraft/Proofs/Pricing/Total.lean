import Mathlib
import Spellcraft.Pricing

set_option autoImplicit false

namespace Spellcraft

def Spell.adjustsTotal (spell : Spell) : Bool :=
  spell.isPrivileged && (spell.carries .voidManifest || spell.carries .paradoxEngine)

def Bill.sum (bill : Bill) : Nat :=
  (bill.perSpell.map UInt32.toNat).sum

namespace Rates

def priceLimit : Nat := 0xFFFFFFFF

def entry (rates : Rates) (spell : Spell) : UInt32 :=
  Number.capped32 (rates.charge spell).toNat

variable {rates : Rates} {spell : Spell} {spells others : List Spell}

@[simp] theorem bill_perSpell (rates : Rates) (spells : List Spell) :
    (rates.bill spells).perSpell = spells.map rates.entry := rfl

theorem entry_toNat (rates : Rates) (spell : Spell) :
    (rates.entry spell).toNat = min (rates.charge spell).toNat priceLimit :=
  Number.capped32_toNat _

theorem max_toNat (left right : UInt32) : (max left right).toNat = max left.toNat right.toNat := by
  change (if left ≤ right then right else left).toNat = _
  rw [Nat.max_def]
  simp only [UInt32.le_iff_toNat_le]
  split
  · rfl
  · rfl

theorem bill_total (rates : Rates) (spells : List Spell) :
    (rates.bill spells).total.toNat =
      max (min (spells.foldl rates.addSpell 0).toNat priceLimit) rates.minimum.toNat := by
  rw [bill, max_toNat, Number.capped32_toNat]
  rfl

theorem addSpell_unadjusted (unadjusted : spell.adjustsTotal = false) (total : UInt64) :
    rates.addSpell total spell = Number.capped64 (total.toNat + (rates.charge spell).toNat) := by
  have no_discount : (spell.isPrivileged && spell.carries .voidManifest) = false := by
    cases privileged : spell.isPrivileged <;> simp_all [Spell.adjustsTotal]
  have no_surcharge : (spell.isPrivileged && spell.carries .paradoxEngine) = false := by
    cases privileged : spell.isPrivileged <;> simp_all [Spell.adjustsTotal]
  simp [addSpell, discount, surcharge, no_discount, no_surcharge]

theorem running_total (unadjusted : ∀ spell ∈ spells, spell.adjustsTotal = false)
    (total : UInt64) :
    (spells.foldl rates.addSpell total).toNat =
      min (total.toNat + (spells.map fun spell => (rates.charge spell).toNat).sum)
        0xFFFFFFFFFFFFFFFF := by
  induction spells generalizing total with
  | nil =>
    have below := total.toNat_lt
    simp only [List.foldl_nil, List.map_nil, List.sum_nil]
    omega
  | cons spell rest ih =>
    have later := ih fun other member => unadjusted other (List.mem_cons_of_mem _ member)
    rw [List.foldl_cons, later, addSpell_unadjusted (unadjusted spell (by simp)),
      Number.capped64_toNat, List.map_cons, List.sum_cons]
    omega

-- What the entries have lost by their own limit is more than the limit of the total.
theorem min_sum_min (limit : Nat) (amounts : List Nat) :
    min (amounts.map fun amount => min amount limit).sum limit = min amounts.sum limit := by
  induction amounts with
  | nil => rfl
  | cons amount rest ih =>
    simp only [List.map_cons, List.sum_cons]
    omega

theorem min_bill_sum (rates : Rates) (spells : List Spell) :
    min (rates.bill spells).sum priceLimit =
      min (spells.map fun spell => (rates.charge spell).toNat).sum priceLimit := by
  rw [← min_sum_min, Bill.sum, bill_perSpell, List.map_map, List.map_map]
  simp only [Function.comp_def, entry_toNat]

theorem total_unadjusted (unadjusted : ∀ spell ∈ spells, spell.adjustsTotal = false) :
    (rates.bill spells).total.toNat =
      max rates.minimum.toNat (min priceLimit (rates.bill spells).sum) := by
  have entries := min_bill_sum rates spells
  rw [bill_total, running_total unadjusted, UInt64.toNat_zero]
  simp only [priceLimit] at entries ⊢
  omega

theorem sum_append (rates : Rates) (spells others : List Spell) :
    (rates.bill (spells ++ others)).sum = (rates.bill spells).sum + (rates.bill others).sum := by
  simp [Bill.sum]

theorem sum_perm (same : spells.Perm others) (rates : Rates) :
    (rates.bill spells).sum = (rates.bill others).sum := by
  simp only [Bill.sum, bill_perSpell]
  exact ((same.map _).map _).sum_eq

theorem minimum_le_total (rates : Rates) (spells : List Spell) :
    rates.minimum ≤ (rates.bill spells).total := by
  rw [UInt32.le_iff_toNat_le, bill_total]
  exact Nat.le_max_right ..

theorem bill_adds_up (rates : Rates) :
    (∀ spells : List Spell, (∀ spell ∈ spells, spell.adjustsTotal = false) →
      (rates.bill spells).total.toNat =
        max rates.minimum.toNat (min priceLimit (rates.bill spells).sum) ∧
      (∀ others, spells.Perm others → rates.price others = rates.price spells) ∧
      ∀ others : List Spell, (∀ spell ∈ others, spell.adjustsTotal = false) →
        (rates.price (spells ++ others)).toNat =
          max rates.minimum.toNat
            (min priceLimit ((rates.bill spells).sum + (rates.bill others).sum))) ∧
    (∀ spells : List Spell, rates.minimum ≤ (rates.bill spells).total ∧
      (rates.bill spells).total.toNat ≤ priceLimit) ∧
    ∃ entry : Spell → UInt32,
      ∀ spells : List Spell, (rates.bill spells).perSpell = spells.map entry := by
  refine ⟨fun spells unadjusted => ⟨total_unadjusted unadjusted, ?_, ?_⟩, ?_, rates.entry, ?_⟩
  · intro others same
    have also_unadjusted : ∀ spell ∈ others, spell.adjustsTotal = false :=
      fun spell member => unadjusted spell (same.mem_iff.2 member)
    apply UInt32.toNat_inj.1
    rw [price, price, total_unadjusted unadjusted, total_unadjusted also_unadjusted,
      sum_perm same]
  · intro others also_unadjusted
    have all_unadjusted : ∀ spell ∈ spells ++ others, spell.adjustsTotal = false := by
      intro spell member
      exact (List.mem_append.1 member).elim (unadjusted spell) (also_unadjusted spell)
    rw [price, total_unadjusted all_unadjusted, sum_append]
  · intro spells
    have below := (rates.bill spells).total.toNat_lt
    exact ⟨minimum_le_total rates spells, by rw [priceLimit]; omega⟩
  · exact bill_perSpell rates

theorem bill_adds_up_capped :
    let rates : Rates := { entropyRate := 1e30, minimum := 7 }
    let endless : Spell :=
      ⟨.entropy, .ofKind .caster, ⟨.increase, 3⟩, 0, "", true, true, true, [.kernelSpace]⟩
    let idle : Spell :=
      ⟨.time, .ofKind .object, ⟨.decrease, 0⟩, 0, "", true, true, false, [.voidManifest]⟩
    let brief : Spell := ⟨.time, .ofKind .object, ⟨.decrease, 11⟩, 0, "", true, true, false, []⟩
    (∀ spell ∈ [endless, endless, idle, brief], spell.adjustsTotal = false) ∧
    (rates.bill [endless, endless, idle, brief]).perSpell = [0xFFFFFFFF, 0xFFFFFFFF, 0, 16] ∧
    rates.price [endless, endless, idle, brief] = 0xFFFFFFFF ∧
    rates.price [brief, endless, idle, endless] = 0xFFFFFFFF ∧
    rates.price [idle] = 7 ∧ (rates.price ([brief] ++ [idle, brief])).toNat = 32 := by
  intro rates endless idle brief
  have unadjusted : ∀ spell ∈ [endless, endless, idle, brief], spell.adjustsTotal = false := by
    decide
  have entries : (rates.bill [endless, endless, idle, brief]).perSpell =
      [0xFFFFFFFF, 0xFFFFFFFF, 0, 16] := by decide +kernel
  have shares : (rates.bill [brief]).sum = 16 ∧ (rates.bill [idle, brief]).sum = 16 ∧
      (rates.bill [idle]).sum = 0 := by decide +kernel
  obtain ⟨total, reordered, -⟩ := (bill_adds_up rates).1 _ unadjusted
  obtain ⟨least, -, -⟩ := (bill_adds_up rates).1 [idle] (by decide)
  obtain ⟨-, -, joined⟩ := (bill_adds_up rates).1 [brief] (by decide)
  have total : rates.price [endless, endless, idle, brief] = 0xFFFFFFFF := by
    apply UInt32.toNat_inj.1
    rw [price, total, Bill.sum, entries]
    rfl
  refine ⟨unadjusted, entries, total, ?_, ?_, ?_⟩
  · rw [reordered _ (by decide), total]
  · apply UInt32.toNat_inj.1
    rw [price, least, shares.2.2]
    rfl
  · rw [joined _ (by decide), shares.1, shares.2.1]
    rfl

end Rates

end Spellcraft
