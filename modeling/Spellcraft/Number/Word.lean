set_option autoImplicit false

namespace Spellcraft.Number

def capped32 (n : Nat) : UInt32 :=
  UInt32.ofNat (min n 0xFFFFFFFF)

def capped64 (n : Nat) : UInt64 :=
  UInt64.ofNat (min n 0xFFFFFFFFFFFFFFFF)

theorem capped32_toNat (n : Nat) : (capped32 n).toNat = min n 0xFFFFFFFF := by
  rw [capped32, UInt32.toNat_ofNat']
  omega

theorem capped64_toNat (n : Nat) : (capped64 n).toNat = min n 0xFFFFFFFFFFFFFFFF := by
  rw [capped64, UInt64.toNat_ofNat']
  omega

end Spellcraft.Number
