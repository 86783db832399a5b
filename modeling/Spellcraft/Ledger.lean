import Spellcraft.Number.Word

set_option autoImplicit false

namespace Spellcraft

structure Limits where
  capacity : UInt32 := 100
  initial : UInt32 := 100
  regenStep : UInt32 := 10
deriving Repr, DecidableEq

structure Balance where
  energy : UInt32
  draftCost : UInt32
deriving Repr, DecidableEq

structure Ledger where
  energy : UInt32
  -- The cost last computed for a draft.
  draftCost : UInt32
  limits : Limits
deriving Repr, DecidableEq

namespace Ledger

def ofBalance (limits : Limits) (balance : Balance) : Ledger where
  energy := min balance.energy limits.capacity
  draftCost := balance.draftCost
  limits := limits

def new (limits : Limits) : Ledger :=
  ofBalance limits ⟨limits.initial, 0⟩

def balance (ledger : Ledger) : Balance :=
  ⟨ledger.energy, ledger.draftCost⟩

def affords (ledger : Ledger) (cost : UInt32) : Bool :=
  cost ≤ ledger.energy

def noteDraft (ledger : Ledger) (cost : UInt32) : Ledger :=
  { ledger with draftCost := cost }

def spend (ledger : Ledger) (cost : UInt32) : Ledger :=
  { ledger with energy := UInt32.ofNat (ledger.energy.toNat - cost.toNat) }

def regenerate (ledger : Ledger) : Ledger :=
  let raised := Number.capped32 (ledger.energy.toNat + ledger.limits.regenStep.toNat)
  { ledger with energy := min raised ledger.limits.capacity }

end Ledger

end Spellcraft
