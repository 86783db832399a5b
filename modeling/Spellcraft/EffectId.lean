import Spellcraft.Number.Hexadecimal

set_option autoImplicit false

namespace Spellcraft

structure EffectId where
  value : BitVec 128
deriving Repr, DecidableEq

namespace EffectId

def text (id : EffectId) : List Char :=
  let digits := Number.hexDigits 32 id.value.toNat
  digits.take 8 ++ '-' :: (digits.drop 8).take 4 ++ '-' :: (digits.drop 12).take 4 ++
    '-' :: (digits.drop 16).take 4 ++ '-' :: digits.drop 20

def ungroup? (text : List Char) : Option (List Char) :=
  let hyphens := [text[8]?, text[13]?, text[18]?, text[23]?]
  if text.length = 36 ∧ hyphens.all (· == some '-') then
    some (text.take 8 ++ (text.drop 9).take 4 ++ (text.drop 14).take 4 ++
      (text.drop 19).take 4 ++ text.drop 24)
  else none

/-- The digits of an identifier: alone, grouped, grouped in braces, or grouped after `urn:uuid:` in
letters of either case. -/
def digits? (text : List Char) : Option (List Char) :=
  if text.length = 32 then some text
  else if text.length = 36 then ungroup? text
  else if text.length = 38 ∧ text.head? = some '\x7b' ∧ text.getLast? = some '\x7d' then
    ungroup? ((text.drop 1).take 36)
  else if text.length = 45 ∧ (text.take 9).map Char.toLower = "urn:uuid:".toList then
    ungroup? (text.drop 9)
  else none

def ofText? (text : List Char) : Option EffectId :=
  (digits? text).bind fun digits =>
    (Number.hexNumber? digits).map fun n => ⟨BitVec.ofNat 128 n⟩

end EffectId

structure IdSupply where
  draw : Nat → EffectId
  used : Nat

namespace IdSupply

def next (supply : IdSupply) : EffectId :=
  supply.draw supply.used

def advance (supply : IdSupply) : IdSupply :=
  { supply with used := supply.used + 1 }

-- Counts up from a seed in the first eight digits, which tell effects apart on a screen.
def ofSeed (seed : BitVec 128) : IdSupply where
  draw count := ⟨seed + (BitVec.ofNat 128 count <<< 96)⟩
  used := 0

end IdSupply

end Spellcraft
