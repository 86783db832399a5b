import Spellcraft.Proofs.EffectId
import Spellcraft.Proofs.Spell
import Spellcraft.Wire.Session

set_option autoImplicit false

namespace Spellcraft

namespace Json

theorem field?_object (fields : List (String × Json)) (name : String) :
    field? name (fields.map fun (name, value) => (some name, value)) = fields.lookup name := by
  induction fields with
  | nil => rfl
  | cons field rest ih =>
    simp only [List.map_cons, field?, ih, lookup_cons, Option.some.injEq, eq_comm]

theorem repeats_eq_false {names : List String} : repeats names = false ↔ names.Nodup := by
  induction names with
  | nil => simp [repeats]
  | cons name others ih => simp [repeats, ih]

-- A record that has exactly the fields that are asked for, in their order, gives each of them.
theorem slots?_object {names : List String} (fields : List (String × Json))
    (named : fields.map Prod.fst = names) (distinct : names.Nodup) :
    (object fields).slots? names = some (fields.map fun field => .given field.2) := by
  subst named
  have known : ((fields.map fun (name, value) => (some name, value)).filterMap fun field =>
      field.1.filter (fields.map Prod.fst).contains) = fields.map Prod.fst := by
    rw [List.filterMap_map, List.filterMap_eq_map_iff_forall_eq_some]
    intro field member
    have listed : field.1 ∈ fields.map Prod.fst := List.mem_map_of_mem member
    rw [Function.comp_apply, Option.filter_some, if_pos (by simpa using listed)]
  have given : ∀ field ∈ fields, slotOf (fields.map fun (name, value) => (some name, value))
      field.1 = .given field.2 := by
    intro field member
    rw [slotOf, field?_object, (lookup_eq_some_iff_mem distinct).2 member]
  rw [object, slots?, known, repeats_eq_false.2 distinct]
  simpa using given

@[simp] theorem required_given {α : Type} (read : Json → Option α) (value : Json) :
    Slot.required read (.given value) = read value := rfl

@[simp] theorem withDefault_given {α : Type} (default : α) (read : Json → Option α) (value : Json) :
    Slot.withDefault default read (.given value) = read value := rfl

@[simp] theorem real?_real (x : Float) : (real x).real? = some x := rfl

@[simp] theorem string?_string (value : String) : (string value).string? = some value := rfl

@[simp] theorem name?_string (value : String) : (string value).name? = some value := rfl

@[simp] theorem natural64?_natural (value : UInt64) : (natural value).natural64? = some value := rfl

@[simp] theorem natural32?_natural32 (value : UInt32) :
    (natural32 value).natural32? = some value := by
  have fits : value.toUInt64 < 0x100000000 := by
    rw [UInt64.lt_iff_toNat_lt, UInt32.toNat_toUInt64]
    exact value.toNat_lt
  simp [natural32, natural32?, fits]

@[simp] theorem integer64?_integer (value : Int64) : (integer value).integer64? = some value := by
  rw [integer]
  split
  · rfl
  · next whole =>
    have fits : value.toUInt64 < 0x8000000000000000 := by
      rw [UInt64.lt_iff_toNat_lt, Int64.toNat_toUInt64_of_le (Int64.not_lt.1 whole)]
      exact value.toNatClampNeg_lt
    simp [natural, integer64?, fits]

theorem mapM_map {α β : Type} {read : β → Option α} {write : α → β} {items : List α}
    (undone : ∀ item ∈ items, read (write item) = some item) :
    (items.map write).mapM read = some items := by
  induction items with
  | nil => rfl
  | cons item rest ih =>
    obtain ⟨first, others⟩ := List.forall_mem_cons.1 undone
    simp [first, ih others]

theorem list?_map {α : Type} {read : Json → Option α} {write : α → Json} {items : List α}
    (undone : ∀ item ∈ items, read (write item) = some item) :
    list? read (.list (items.map write)) = some items :=
  mapM_map undone

end Json

open Json

@[simp] theorem Focus.ofJson?_toJson (focus : Focus) : ofJson? focus.toJson = some focus := by
  cases focus <;> rfl

@[simp] theorem AnchorKind.ofJson?_toJson (kind : AnchorKind) :
    ofJson? kind.toJson = some kind := by
  cases kind <;> rfl

@[simp] theorem EffectKind.ofJson?_toJson (kind : EffectKind) :
    ofJson? kind.toJson = some kind := by
  cases kind with
  | ofFocus focus => cases focus <;> rfl
  | kernelSpace => rfl

@[simp] theorem EffectId.ofJson?_toJson (id : EffectId) : ofJson? id.toJson = some id := by
  simp [toJson, ofJson?]

@[simp] theorem Parameter.ofField?_toJson (parameter : Parameter) :
    ofField? (some parameter.1, parameter.2.toJson) = some parameter := by
  obtain ⟨key, value | value⟩ := parameter <;> rfl

@[simp] theorem Parameters.ofJson?_toJson (parameters : Parameters) :
    ofJson? parameters.toJson = some parameters := by
  have read : (parameters.entries.map fun entry => (some entry.1, entry.2.toJson)).mapM
      Parameter.ofField? = some parameters.entries :=
    mapM_map fun entry _ => Parameter.ofField?_toJson entry
  simp [toJson, ofJson?, object, Function.comp_def, read]

@[simp] theorem Effect.ofJson?_toJson (effect : Effect) : ofJson? effect.toJson = some effect := by
  simp [ofJson?, toJson, slots?_object]

@[simp] theorem Dimensions.ofJson?_toJson (dimensions : Dimensions) :
    ofJson? dimensions.toJson = some dimensions := by
  simp [ofJson?, toJson, slots?_object]

@[simp] theorem optional_focus (focus : Option Focus) :
    Slot.optional Focus.ofJson? (.given ((focus.map Focus.toJson).getD .null)) = some focus := by
  cases focus with
  | none => rfl
  | some focus => cases focus <;> rfl

@[simp] theorem Reality.ofJson?_toJson (reality : Reality) :
    ofJson? reality.toJson = some reality := by
  simp [ofJson?, toJson, slots?_object, list?_map]

@[simp] theorem Task.name?_object (fields : List (String × Json)) (slot : Slot) :
    Task.name? (object fields) slot = slot.required Json.name? := rfl

@[simp] theorem Task.ofJson?_toJson (task : Task) : ofJson? task.toJson = some task := by
  cases task with
  | expireEffect id =>
    simp [ofJson?, toJson, slots?_object]
  | halveProbability => rfl
  | normalizeTime => rfl

@[simp] theorem PendingTask.ofJson?_toJson (pending : PendingTask) :
    ofJson? pending.toJson = some pending := by
  simp [ofJson?, toJson, slots?_object]

@[simp] theorem Balance.ofJson?_toJson (balance : Balance) :
    ofJson? balance.toJson = some balance := by
  simp [ofJson?, toJson, slots?_object]

@[simp] theorem Session.ofJson?_toJson (session : Session) :
    ofJson? session.toJson = some session := by
  simp [ofJson?, toJson, slots?_object, list?_map]

@[simp] theorem Snapshot.ofJson?_toJson (snapshot : Snapshot) :
    ofJson? snapshot.toJson = some snapshot := by
  simp [ofJson?, toJson, slots?_object]

end Spellcraft
