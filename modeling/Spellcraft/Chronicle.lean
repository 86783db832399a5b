import Spellcraft.EffectId
import Spellcraft.Reality.Verdict
import Spellcraft.Spell.Keyword

set_option autoImplicit false

namespace Spellcraft

inductive Phenomenon where
  | spellCast (id : EffectId) (time : UInt64) (cost : UInt32) (fragment : String)
  | feedback (id : EffectId) (time : UInt64) (kind : Feedback) (intensity : Float)
deriving DecidableEq

structure ChronicleStatus where
  phenomena : List Phenomenon
  integrity : Int32
  anomaly : Float
deriving DecidableEq

structure Chronicle where
  -- The oldest first.
  phenomena : List Phenomenon
  found : List (String × List Keyword)
  integrity : Int32
  anomaly : Float
  ids : IdSupply

namespace Chronicle

def capacity : Nat := 10

def fragmentLength : Nat := 50

def anomalyThreshold : Float := 10.0

def integrityPenalty : Int32 := 5

def new (ids : IdSupply) : Chronicle :=
  ⟨[], [], 100, 0.0, ids⟩

def keep (phenomena : List Phenomenon) (phenomenon : Phenomenon) : List Phenomenon :=
  let grown := phenomena ++ [phenomenon]
  grown.drop (grown.length - capacity)

def discoveries (chronicle : Chronicle) (caller : String) : List Keyword :=
  (chronicle.found.lookup caller).getD []

def hint (chronicle : Chronicle) (caller : String) : String :=
  if (chronicle.discoveries caller).isEmpty then "Look for hidden patterns in the code"
  else "You've begun to see beyond the veil"

def status (chronicle : Chronicle) : ChronicleStatus :=
  ⟨chronicle.phenomena, chronicle.integrity, chronicle.anomaly⟩

/-- Records a cast and answers the keywords that are new to the caller. A blank script is not
recorded. -/
def recordCast (chronicle : Chronicle) (caller script : String) (cost : UInt32) (now : UInt64) :
    Option (List Keyword × Chronicle) :=
  let text := script.toList
  if Text.allBlank text then none
  else
    let known := chronicle.discoveries caller
    let fresh := (Keyword.inText text).filter fun keyword => !known.contains keyword
    let fragment := String.ofList (text.take fragmentLength)
    let phenomenon := Phenomenon.spellCast chronicle.ids.next now cost fragment
    some (fresh, { chronicle with
      phenomena := keep chronicle.phenomena phenomenon
      found := (caller, known ++ fresh) :: chronicle.found.filter (·.1 != caller)
      ids := chronicle.ids.advance })

-- Past the threshold the system loses integrity and the anomaly is spent.
def recordFeedback (chronicle : Chronicle) (kind : Feedback) (intensity : Option Float)
    (now : UInt64) : Chronicle :=
  let strength := intensity.getD 1.0
  let raised := chronicle.anomaly + strength
  let past : Bool := anomalyThreshold < raised
  { chronicle with
    phenomena :=
      keep chronicle.phenomena (.feedback chronicle.ids.next now kind strength)
    integrity := if past then chronicle.integrity - integrityPenalty else chronicle.integrity
    anomaly := if past then 0.0 else raised
    ids := chronicle.ids.advance }

def emptySpellMessage : String :=
  "no spell code provided"

end Chronicle

end Spellcraft
