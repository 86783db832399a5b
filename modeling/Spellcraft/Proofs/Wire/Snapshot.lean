import Spellcraft.Proofs.Json.Document
import Spellcraft.Proofs.Wire.Values

set_option autoImplicit false

namespace Spellcraft

open Json

def Effect.reals (effect : Effect) : List Float :=
  effect.intensity :: effect.anchor.parameters.entries.filterMap fun entry => entry.2.number?

def Reality.reals (reality : Reality) : List Float :=
  [reality.energy, reality.probability, reality.entropy, reality.timeSpeed] ++
    reality.effects.flatMap Effect.reals

def Session.ReadsBack (session : Session) : Prop :=
  ∀ x ∈ session.reality.reals, Json.ReadsBack x

instance (session : Session) : Decidable session.ReadsBack :=
  inferInstanceAs (Decidable (∀ x ∈ session.reality.reals, Json.ReadsBack x))

section Changed

variable {change : Float → Float}

def ParameterValue.mapNumber (change : Float → Float) : ParameterValue → ParameterValue
  | number value => number (change value)
  | text value => text value

def Parameters.mapNumbers (change : Float → Float) (parameters : Parameters) : Parameters :=
  ⟨parameters.entries.map (Prod.map id (ParameterValue.mapNumber change)),
    List.pairwise_map.2 parameters.ascending⟩

def Effect.mapReals (change : Float → Float) (effect : Effect) : Effect :=
  { effect with
    anchor := { effect.anchor with parameters := effect.anchor.parameters.mapNumbers change }
    intensity := change effect.intensity }

def Reality.mapReals (change : Float → Float) (reality : Reality) : Reality :=
  { reality with
    energy := change reality.energy
    probability := change reality.probability
    entropy := change reality.entropy
    timeSpeed := change reality.timeSpeed
    effects := reality.effects.map (Effect.mapReals change) }

def Session.mapReals (change : Float → Float) (session : Session) : Session :=
  { session with reality := session.reality.mapReals change }

theorem ParameterValue.number?_mapNumber (value : ParameterValue) :
    (value.mapNumber change).number? = value.number?.map change := by
  cases value <;> rfl

theorem Effect.reals_mapReals (effect : Effect) :
    (effect.mapReals change).reals = effect.reals.map change := by
  simp [reals, mapReals, Parameters.mapNumbers, List.filterMap_map, List.map_filterMap,
    ParameterValue.number?_mapNumber]

theorem Reality.reals_mapReals (reality : Reality) :
    (reality.mapReals change).reals = reality.reals.map change := by
  simp [reals, mapReals, List.flatMap_map, List.map_flatMap, Effect.reals_mapReals]

theorem Parameters.mapNumbers_eq_self {parameters : Parameters}
    (same : ∀ entry ∈ parameters.entries, ∀ x ∈ entry.2.number?, change x = x) :
    parameters.mapNumbers change = parameters := by
  obtain ⟨entries, ascending⟩ := parameters
  have entries_same : entries.map (Prod.map id (ParameterValue.mapNumber change)) = entries := by
    refine (List.map_congr_left fun entry listed => ?_).trans (List.map_id _)
    obtain ⟨key, value | value⟩ := entry
    · simp [ParameterValue.mapNumber, same _ listed value rfl]
    · rfl
  simpa [mapNumbers] using entries_same

theorem Effect.mapReals_eq_self {effect : Effect} (same : ∀ x ∈ effect.reals, change x = x) :
    effect.mapReals change = effect := by
  obtain ⟨intensity, numbers⟩ := List.forall_mem_cons.1 same
  have parameters : effect.anchor.parameters.mapNumbers change = effect.anchor.parameters := by
    refine Parameters.mapNumbers_eq_self fun entry listed x number => numbers x ?_
    exact List.mem_filterMap.2 ⟨entry, listed, number⟩
  rw [mapReals, parameters, intensity]

theorem Reality.mapReals_eq_self {reality : Reality}
    (same : ∀ x ∈ reality.reals, change x = x) : reality.mapReals change = reality := by
  obtain ⟨levels, numbers⟩ := List.forall_mem_append.1 same
  have effects : reality.effects.map (Effect.mapReals change) = reality.effects := by
    refine (List.map_congr_left fun effect member => ?_).trans (List.map_id _)
    exact Effect.mapReals_eq_self fun x within =>
      numbers x (List.mem_flatMap.2 ⟨effect, member, within⟩)
  simp only [List.forall_mem_cons] at levels
  simp only [mapReals, levels, effects]

theorem Session.mapReals_eq_self_iff {session : Session} :
    session.mapReals change = session ↔ ∀ x ∈ session.reality.reals, change x = x := by
  constructor
  · intro same
    have reals := @Reality.reals_mapReals change session.reality
    have kept : session.reality.mapReals change = session.reality := congrArg Session.reality same
    rw [kept] at reals
    exact List.map_inj_left.1 (reals.symm.trans (List.map_id _).symm)
  · intro same
    rw [mapReals, Reality.mapReals_eq_self same]

end Changed

theorem ParameterValue.toJson_legible {value : ParameterValue}
    (finite : ∀ x ∈ value.number?, Number.isFinite x = true) : value.toJson.Legible := by
  cases value with
  | number x => exact legible_real.2 (finite x rfl)
  | text value => exact legible_string value

theorem Parameters.toJson_legible {parameters : Parameters}
    (finite : ∀ entry ∈ parameters.entries, ∀ x ∈ entry.2.number?, Number.isFinite x = true) :
    parameters.toJson.Legible := by
  rw [toJson, legible_object]
  rintro field member
  obtain ⟨entry, listed, rfl⟩ := List.mem_map.1 member
  exact ParameterValue.toJson_legible (finite entry listed)

theorem Effect.toJson_legible {effect : Effect}
    (finite : ∀ x ∈ effect.reals, Number.isFinite x = true) : effect.toJson.Legible := by
  obtain ⟨intensity, numbers⟩ := List.forall_mem_cons.1 finite
  have parameters : effect.anchor.parameters.toJson.Legible := by
    refine Parameters.toJson_legible fun entry listed x number => numbers x ?_
    exact List.mem_filterMap.2 ⟨entry, listed, number⟩
  simp [toJson, EffectId.toJson, EffectKind.toJson, AnchorKind.toJson, parameters, intensity]

theorem Reality.toJson_legible {reality : Reality}
    (finite : ∀ x ∈ reality.reals, Number.isFinite x = true) : reality.toJson.Legible := by
  obtain ⟨levels, numbers⟩ := List.forall_mem_append.1 finite
  have effects : ∀ effect ∈ reality.effects, effect.toJson.Legible := fun effect member =>
    Effect.toJson_legible fun x within => numbers x (List.mem_flatMap.2 ⟨effect, member, within⟩)
  have focus : ((reality.lastFocus.map Focus.toJson).getD .null).Legible := by
    cases reality.lastFocus <;> simp [Focus.toJson]
  have dimensions : reality.dimensions.toJson.Legible := by simp [Dimensions.toJson]
  simp only [List.forall_mem_cons] at levels
  simpa [toJson, levels, focus, dimensions] using effects

theorem PendingTask.toJson_legible (pending : PendingTask) : pending.toJson.Legible := by
  have task : pending.task.toJson.Legible := by
    cases pending.task <;> simp [Task.toJson, EffectId.toJson]
  simp [toJson, task]

theorem Session.toJson_legible {session : Session}
    (finite : ∀ x ∈ session.reality.reals, Number.isFinite x = true) : session.toJson.Legible := by
  simp [toJson, Balance.toJson, Reality.toJson_legible finite, PendingTask.toJson_legible]

-- Reading a document changes the doubles that are written in it, and nothing else.
theorem ParameterValue.toJson_reread (value : ParameterValue) :
    value.toJson.reread = (value.mapNumber readAs).toJson := by
  cases value <;> rfl

theorem Parameters.toJson_reread (parameters : Parameters) :
    parameters.toJson.reread = (parameters.mapNumbers readAs).toJson := by
  simp [toJson, reread_object, mapNumbers, ParameterValue.toJson_reread, Function.comp_def]

theorem Effect.toJson_reread (effect : Effect) :
    effect.toJson.reread = (effect.mapReals readAs).toJson := by
  simp [toJson, reread_object, mapReals, EffectId.toJson, EffectKind.toJson, AnchorKind.toJson,
    Parameters.toJson_reread]

theorem Reality.toJson_reread (reality : Reality) :
    reality.toJson.reread = (reality.mapReals readAs).toJson := by
  have focus : ((reality.lastFocus.map Focus.toJson).getD .null).reread =
      (reality.lastFocus.map Focus.toJson).getD .null := by
    cases reality.lastFocus <;> simp [Focus.toJson]
  simp [toJson, reread_object, mapReals, Dimensions.toJson, focus, Effect.toJson_reread,
    Function.comp_def]

theorem PendingTask.toJson_reread (pending : PendingTask) :
    pending.toJson.reread = pending.toJson := by
  have task : pending.task.toJson.reread = pending.task.toJson := by
    cases pending.task <;> simp [Task.toJson, reread_object, EffectId.toJson]
  simp [toJson, reread_object, task]

theorem Session.toJson_reread (session : Session) :
    session.toJson.reread = (session.mapReals readAs).toJson := by
  simp [toJson, reread_object, mapReals, Balance.toJson, Reality.toJson_reread,
    PendingTask.toJson_reread, Function.comp_def]

theorem Session.ofText?_finite {session : Session}
    (finite : ∀ x ∈ session.reality.reals, Number.isFinite x = true) :
    ofText? session.text = some (session.mapReals readAs) := by
  simp [ofText?, text, parse?_compact (toJson_legible finite), Session.toJson_reread]

theorem Session.ofText?_text {session : Session} (readsBack : session.ReadsBack) :
    ofText? session.text = some session := by
  have finite : ∀ x ∈ session.reality.reals, Number.isFinite x = true :=
    fun x member => (readsBack x member).1
  rw [ofText?_finite finite, Session.mapReals_eq_self_iff.2]
  exact fun x member => (readsBack_iff.1 (readsBack x member)).2

namespace Snapshot

theorem ofFileText?_fileText (snapshot : Snapshot) :
    ofFileText? snapshot.fileText = some snapshot := by
  have legible : snapshot.toJson.Legible := by simp [toJson]
  have same : snapshot.toJson.reread = snapshot.toJson := by simp [toJson, reread_object]
  simp [ofFileText?, fileText, parse?_pretty legible, same]

theorem restore_finite {session : Session}
    (finite : ∀ x ∈ session.reality.reals, Number.isFinite x = true) (savedAt : UInt64) :
    (capture session savedAt).restore = .ok (session.mapReals readAs) := by
  simp [restore, capture, Session.ofText?_finite finite]

theorem restore_capture {session : Session} (readsBack : session.ReadsBack) (savedAt : UInt64) :
    (capture session savedAt).restore = .ok session := by
  simp [restore, capture, Session.ofText?_text readsBack]

theorem session_kept {session : Session} (readsBack : session.ReadsBack) (savedAt : UInt64) :
    (∃ loaded, ofFileText? (capture session savedAt).fileText = some loaded ∧
      loaded.restore = .ok session) ∧
    ∀ other : Session, other.ReadsBack → other.text = session.text → other = session := by
  have restored := restore_capture readsBack savedAt
  refine ⟨⟨_, ofFileText?_fileText _, restored⟩, fun other alike same => ?_⟩
  have read := Session.ofText?_text alike
  rw [same, Session.ofText?_text readsBack] at read
  exact (Option.some.inj read).symm

theorem session_kept_quoted :
    let parameters := Parameters.ofList
      [("radius", .number 2.5), ("note\n", .text "1e3 \"\x07\" é")]
    let effect : Effect := ⟨⟨0x0123456789abcdef0011⟩, .kernelSpace, ⟨.zone, parameters⟩,
      -0x8000000000000000, 0xFFFFFFFFFFFFFFFF, 7, 0.3⟩
    let session : Session := {
      reality := { energy := 1e21, entropy := -0.0, effects := [effect], lastFocus := some .time }
      pending := [⟨7, .expireEffect effect.id⟩, ⟨9, .halveProbability⟩, ⟨9, .normalizeTime⟩]
      balance := ⟨0xFFFFFFFF, 0⟩ }
    session.ReadsBack ∧
      ∃ loaded, ofFileText? (capture session 12).fileText = some loaded ∧
        loaded.restore = .ok session := by
  intro parameters effect session
  have readsBack : session.ReadsBack := by decide +kernel
  exact ⟨readsBack, (session_kept readsBack 12).1⟩

end Snapshot

end Spellcraft
