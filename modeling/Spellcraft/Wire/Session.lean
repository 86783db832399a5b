import Spellcraft.Caster
import Spellcraft.Digest
import Spellcraft.Json.Reader
import Spellcraft.Json.Writer
import Spellcraft.Wire.Reality

set_option autoImplicit false

namespace Spellcraft

def Balance.toJson (balance : Balance) : Json :=
  .object [
    ("energy", .natural32 balance.energy),
    ("current_cost", .natural32 balance.draftCost)]

def Balance.ofJson? (json : Json) : Option Balance := do
  match ← json.slots? ["energy", "current_cost"] with
  | [energy, draftCost] =>
    return {
      energy := ← energy.required Json.natural32?
      draftCost := ← draftCost.withDefault 0 Json.natural32? }
  | _ => none

/-- All that a session needs to be taken up again. Limits come from the settings. -/
structure Session where
  reality : Reality
  pending : List PendingTask
  balance : Balance
deriving DecidableEq

namespace Session

def toJson (session : Session) : Json :=
  .object [
    ("state", session.reality.toJson),
    ("pending", .list (session.pending.map PendingTask.toJson)),
    ("ledger", session.balance.toJson)]

def ofJson? (json : Json) : Option Session := do
  match ← json.slots? ["state", "pending", "ledger"] with
  | [reality, pending, balance] =>
    return {
      reality := ← reality.required Reality.ofJson?
      pending := ← pending.withDefault [] (Json.list? PendingTask.ofJson?)
      balance := ← balance.required Balance.ofJson? }
  | _ => none

def text (session : Session) : String :=
  String.ofList session.toJson.compact

def ofText? (text : String) : Option Session :=
  (Json.parse? text.toList).bind ofJson?

end Session

structure Snapshot where
  schema : UInt32
  savedAt : UInt64
  digest : String
  payload : String
deriving Repr, DecidableEq

inductive RestoreError where
  | schemaMismatch (found : UInt32)
  | integrityMismatch (expected actual : String)
  | unreadable
deriving Repr, DecidableEq

namespace Snapshot

def currentSchema : UInt32 := 2

def capture (session : Session) (savedAt : UInt64) : Snapshot :=
  let payload := session.text
  ⟨currentSchema, savedAt, Digest.ofText payload, payload⟩

def verify (snapshot : Snapshot) : Bool :=
  Digest.ofText snapshot.payload == snapshot.digest

def restore (snapshot : Snapshot) : Except RestoreError Session :=
  if snapshot.schema != currentSchema then .error (.schemaMismatch snapshot.schema)
  else
    let actual := Digest.ofText snapshot.payload
    if actual != snapshot.digest then .error (.integrityMismatch snapshot.digest actual)
    else
      match Session.ofText? snapshot.payload with
      | some session => .ok session
      | none => .error .unreadable

def toJson (snapshot : Snapshot) : Json :=
  .object [
    ("schema_version", .natural32 snapshot.schema),
    ("saved_at_ms", .natural snapshot.savedAt),
    ("sha256", .string snapshot.digest),
    ("payload", .string snapshot.payload)]

def ofJson? (json : Json) : Option Snapshot := do
  match ← json.slots? ["schema_version", "saved_at_ms", "sha256", "payload"] with
  | [schema, savedAt, digest, payload] =>
    return {
      schema := ← schema.required Json.natural32?
      savedAt := ← savedAt.required Json.natural64?
      digest := ← digest.required Json.string?
      payload := ← payload.required Json.string? }
  | _ => none

def fileText (snapshot : Snapshot) : String :=
  String.ofList (snapshot.toJson.pretty 0)

def ofFileText? (text : String) : Option Snapshot :=
  (Json.parse? text.toList).bind ofJson?

end Snapshot

def RestoreError.message : RestoreError → String
  | .schemaMismatch found =>
    "schema version mismatch: file has v" ++
      Number.naturalString found.toNat ++ ", expected v" ++
      Number.naturalString Snapshot.currentSchema.toNat
  | .integrityMismatch expected actual =>
    "integrity check failed: expected " ++ expected ++ ", got " ++ actual
  | .unreadable => "JSON error"

namespace Caster

def session (caster : Caster) : Session :=
  ⟨caster.engine.reality, caster.engine.timeline.pending, caster.ledger.balance⟩

/-- Takes up a session, and settles at once what has become due in the meantime. -/
def resume (settings : Settings) (ids : IdSupply) (now : UInt64) (session : Session) :
    Except Fault Caster := do
  let caster : Caster := {
    engine := .ofParts settings.laws ids session.reality session.pending
    ledger := .ofBalance settings.limits session.balance
    rates := settings.rates }
  let (_, settled) ← caster.tick now
  return settled

end Caster

end Spellcraft
