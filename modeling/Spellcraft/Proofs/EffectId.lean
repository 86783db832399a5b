import Spellcraft.EffectId
import Spellcraft.Proofs.Number.Hexadecimal

set_option autoImplicit false

namespace Spellcraft

namespace EffectId

theorem ungroup?_groups {first second third fourth last : List Char} (eight : first.length = 8)
    (four : second.length = 4) (four' : third.length = 4) (four'' : fourth.length = 4)
    (twelve : last.length = 12) :
    ungroup? (first ++ '-' :: second ++ '-' :: third ++ '-' :: fourth ++ '-' :: last) =
      some (first ++ second ++ third ++ fourth ++ last) := by
  simp [ungroup?, List.drop_append, List.drop_eq_nil_of_le, eight, four, four',
    four'', twelve]

@[simp] theorem ofText?_text (id : EffectId) : ofText? id.text = some id := by
  let digits := Number.hexDigits 32 id.value.toNat
  have length : digits.length = 32 := Number.length_hexDigits 32 id.value.toNat
  have number : Number.hexNumber? digits = some id.value.toNat :=
    Number.hexNumber?_hexDigits id.value.isLt
  have grouped := @ungroup?_groups (digits.take 8) ((digits.drop 8).take 4)
    ((digits.drop 12).take 4) ((digits.drop 16).take 4) (digits.drop 20)
    (by simp [length]) (by simp [length]) (by simp [length]) (by simp [length]) (by simp [length])
  have joined : digits.take 8 ++ (digits.drop 8).take 4 ++ (digits.drop 12).take 4 ++
      (digits.drop 16).take 4 ++ digits.drop 20 = digits := by
    simp only [← List.take_add, List.take_append_drop]
  rw [joined] at grouped
  have size : id.text.length = 36 := by simp [text, digits, length]
  rw [ofText?, digits?, if_neg (by omega), if_pos size, text, grouped, Option.bind_some, number,
    Option.map_some, BitVec.ofNat_toNat, BitVec.setWidth_eq]

end EffectId

namespace IdSupply

attribute [ext] IdSupply

def Distinct (supply : IdSupply) : Prop :=
  ∀ second, second < supply.used → ∀ first, first < second →
    supply.draw first ≠ supply.draw second

instance (supply : IdSupply) : Decidable supply.Distinct :=
  inferInstanceAs (Decidable (∀ second, second < supply.used → ∀ first, first < second →
    supply.draw first ≠ supply.draw second))

structure Onward (supply later : IdSupply) : Prop where
  draw : later.draw = supply.draw
  used : supply.used ≤ later.used

theorem Onward.refl (supply : IdSupply) : supply.Onward supply :=
  ⟨rfl, Nat.le_refl _⟩

theorem Onward.trans {first second third : IdSupply} (left : first.Onward second)
    (right : second.Onward third) : first.Onward third :=
  ⟨right.draw.trans left.draw, Nat.le_trans left.used right.used⟩

theorem Distinct.before {supply later : IdSupply} (distinct : later.Distinct)
    (onward : supply.Onward later) : supply.Distinct := by
  intro second below first sooner
  rw [← onward.draw]
  exact distinct second (Nat.lt_of_lt_of_le below onward.used) first sooner

def Drawn (supply : IdSupply) (id : EffectId) : Prop :=
  ∃ count, count < supply.used ∧ id = supply.draw count

theorem Drawn.later {supply later : IdSupply} {id : EffectId} (drawn : supply.Drawn id)
    (onward : supply.Onward later) : later.Drawn id := by
  obtain ⟨count, below, rfl⟩ := drawn
  exact ⟨count, Nat.lt_of_lt_of_le below onward.used, by rw [onward.draw]⟩

-- The next identifier is new once the supply that has drawn it is distinct.
theorem Drawn.ne_next {supply later : IdSupply} {id : EffectId} (drawn : supply.Drawn id)
    (draw : later.draw = supply.draw) (used : supply.used < later.used)
    (distinct : later.Distinct) : id ≠ supply.next := by
  obtain ⟨count, below, rfl⟩ := drawn
  have apart := distinct supply.used used count below
  rwa [draw] at apart

end IdSupply

end Spellcraft
