import Spellcraft.Main
import Spellcraft.Wire.Chronicle
import Spellcraft.Proofs.Fault
import Spellcraft.Proofs.Reality.Cast
import Spellcraft.Proofs.Timeline
import Spellcraft.Proofs.Timeline.Refinement
import Spellcraft.Proofs.Caster.Action
import Spellcraft.Proofs.Caster.Course
import Spellcraft.Proofs.Caster.Energy
import Spellcraft.Proofs.Caster.Resume
import Spellcraft.Proofs.Engine.Chain
import Spellcraft.Proofs.Engine.Coalescing
import Spellcraft.Proofs.Engine.Conservation
import Spellcraft.Proofs.Engine.Expiry
import Spellcraft.Proofs.Engine.Range
import Spellcraft.Proofs.Engine.Recovery
import Spellcraft.Proofs.Script.Reading
import Spellcraft.Proofs.Terminal
import Spellcraft.Proofs.Wire.Snapshot
import Spellcraft.Proofs.Script.Arrangement
import Spellcraft.Proofs.CommandLine.Casting
import Spellcraft.Proofs.Caster.Finite
import Spellcraft.Proofs.Caster.Saving
import Spellcraft.Proofs.Chronicle
import Spellcraft.Proofs.Engine.Independence
import Spellcraft.Proofs.Pricing.Monotone
import Spellcraft.Proofs.Engine.Direction
import Spellcraft.Proofs.Engine.Privilege
import Spellcraft.Proofs.Engine.Record
import Spellcraft.Proofs.Wire.Tampering
import Spellcraft.Proofs.Engine.Remaining
import Spellcraft.Proofs.Caster.Drain
import Spellcraft.Proofs.Caster.Presentation
