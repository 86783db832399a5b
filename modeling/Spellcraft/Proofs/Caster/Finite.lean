import Spellcraft.Proofs.Caster.Course
import Spellcraft.Proofs.Engine.Finite
import Spellcraft.Proofs.Number.Magnitude
import Spellcraft.Proofs.Script.Reading

set_option autoImplicit false

namespace Spellcraft

theorem ParameterValue.ofText_isFinite {raw : List Char} :
    ∀ x ∈ (ofText raw).number?, x.isFinite = true := by
  intro x number
  simp only [ofText] at number
  split at number
  · split at number
    next finite =>
      cases number
      rwa [← Number.isFinite_eq]
    next => cases number
  · cases number

namespace Script

theorem Anchors.isFinite {value : List Char} {anchor : Anchor} (anchors : Anchors value anchor) :
    anchor.IsFinite := by
  obtain ⟨rest, -, -, ⟨-, bare⟩ | ⟨inner, -, lists⟩⟩ := anchors
  · rw [Anchor.IsFinite, bare]
    rintro entry ⟨⟩
  · rintro ⟨key, value⟩ listed
    have found := Parameters.find?_eq_some.2 listed
    obtain ⟨_, piece, _, -, ⟨_, right, -, -, -, -, -, rfl⟩, -⟩ := (lists key value).1 found
    exact ParameterValue.ofText_isFinite

theorem ofScript_isFinite {script : String} {spells : List Spell}
    (read : Spell.ofScript script = .ok spells) : ∀ spell ∈ spells, spell.anchor.IsFinite := by
  obtain ⟨-, keywords, bound, last, body, earlier, final, -, -, -, -, -, rfl, told, ends⟩ :=
    read_eq_ok.1 read
  have tells {isLast : Bool} {segment : Segment} {spell : Spell}
      (tells : Tells keywords isLast segment spell) : spell.anchor.IsFinite := by
    obtain ⟨value, -, anchors⟩ := tells.anchor
    exact anchors.isFinite
  have earlier : ∀ spell ∈ earlier, spell.anchor.IsFinite := by
    clear read
    induction told with
    | nil => simp
    | cons first _ ih => exact List.forall_mem_cons.2 ⟨tells first, ih⟩
  exact List.forall_mem_append.2 ⟨earlier, by simpa using tells ends⟩

end Script

def Spell.IsScripted (spell : Spell) : Prop :=
  ∃ script spells, Spell.ofScript script = .ok spells ∧ spell ∈ spells

theorem Spell.IsScripted.isFinite {spell : Spell} (scripted : spell.IsScripted) :
    spell.anchor.IsFinite := by
  obtain ⟨script, spells, read, member⟩ := scripted
  exact Script.ofScript_isFinite read spell member

namespace Caster

/-- Only spells of scripts are cast, and only finite values are set. -/
def Action.Ordinary : Action → Prop
  | .castCompiled compiled => ∀ spell ∈ compiled.spells, spell.IsScripted
  | .engine operation => operation.Within Spell.IsScripted fun _ value => value.isFinite = true
  | .compile _ | .cast _ | .regenerate | .tick | .resume => True

variable {caster noted next : Caster} {settings : Settings} {now : UInt64}

theorem castCompiled_isFinite {compiled : Compiled} {report : CastReport}
    (finite : caster.engine.laws.IsFinite)
    (anchors : ∀ spell ∈ compiled.spells, spell.anchor.IsFinite)
    (done : caster.castCompiled now compiled = .ok (report, next))
    (before : caster.engine.reality.IsFinite) : next.engine.reality.IsFinite := by
  by_cases affordable : caster.ledger.affords compiled.cost = true
  · simp only [castCompiled, affordable, if_true] at done
    obtain ⟨⟨verdict, engine⟩, cast, rest⟩ := Fault.bind_eq_ok.1 done
    cases rest
    have kept : engine.reality.IsFinite := Engine.cast_isFinite finite anchors cast before
    exact kept
  · simp only [castCompiled, affordable] at done
    cases done
    exact before

theorem compile_spells {script : String} {compiled : Compiled}
    (done : caster.compile script = .ok (compiled, noted)) :
    Spell.ofScript script = .ok compiled.spells := by
  obtain ⟨spells, read, rest⟩ := Fault.bind_eq_ok.1 done
  cases rest
  exact read

theorem cast_isFinite {script : String} {result : Except ScriptError CastReport}
    (finite : caster.engine.laws.IsFinite) (done : caster.cast now script = .ok (result, next))
    (before : caster.engine.reality.IsFinite) : next.engine.reality.IsFinite := by
  rw [Caster.cast] at done
  cases read : caster.compile script with
  | error error =>
    simp only [read] at done
    cases done
    exact before
  | ok pair =>
    obtain ⟨compiled, noted⟩ := pair
    simp only [read] at done
    obtain ⟨⟨report, last⟩, cast, rest⟩ := Fault.bind_eq_ok.1 done
    cases rest
    have anchors := Script.ofScript_isFinite (compile_spells read)
    have same : noted.engine = caster.engine := by rw [compile_eq_ok read]
    rw [← same] at finite before
    exact castCompiled_isFinite finite anchors cast before

theorem tick_isFinite {count : Nat} (finite : caster.engine.laws.IsFinite)
    (done : caster.tick now = .ok (count, next)) (before : caster.engine.reality.IsFinite) :
    next.engine.reality.IsFinite := by
  obtain ⟨engine, ticked, rfl⟩ := tick_eq_ok.1 done
  have kept : engine.reality.IsFinite := Engine.tick_isFinite finite ticked before
  exact kept

theorem perform_isFinite {action : Action} {answer : Answer} (finite : settings.laws.IsFinite)
    (follows : caster.Follows settings) (ordinary : action.Ordinary)
    (performed : caster.perform settings now action = .ok (answer, next))
    (before : caster.engine.reality.IsFinite) : next.engine.reality.IsFinite := by
  have lawful : caster.engine.laws.IsFinite := by rwa [follows.laws]
  cases action with
  | compile script =>
    cases read : caster.compile script with
    | error error =>
      simp only [perform, read] at performed
      cases performed
      exact before
    | ok pair =>
      simp only [perform, read] at performed
      cases performed
      rw [compile_eq_ok read]
      exact before
  | cast script =>
    obtain ⟨⟨result, last⟩, cast, done⟩ := Fault.bind_eq_ok.1 performed
    cases done
    exact cast_isFinite lawful cast before
  | castCompiled compiled =>
    obtain ⟨⟨report, last⟩, cast, done⟩ := Fault.bind_eq_ok.1 performed
    cases done
    exact castCompiled_isFinite lawful (fun spell member => (ordinary spell member).isFinite) cast
      before
  | regenerate =>
    cases performed
    exact before
  | tick =>
    obtain ⟨⟨count, last⟩, ticked, done⟩ := Fault.bind_eq_ok.1 performed
    cases done
    exact tick_isFinite lawful ticked before
  | engine operation =>
    obtain ⟨⟨engine_answer, engine⟩, done, rest⟩ := Fault.bind_eq_ok.1 performed
    cases rest
    exact Engine.perform_isFinite lawful (ordinary.imp fun _ scripted => scripted.isFinite) done
      before
  | resume =>
    obtain ⟨last, resumed, done⟩ := Fault.bind_eq_ok.1 performed
    cases done
    obtain ⟨⟨count, settled⟩, ticked, rest⟩ := Fault.bind_eq_ok.1 resumed
    cases rest
    exact tick_isFinite finite ticked before

structure Sane (caster : Caster) (settings : Settings) : Prop where
  follows : caster.Follows settings
  finite : caster.engine.reality.IsFinite

theorem run_sane {course : Course} {actions : List (UInt64 × Action)}
    (finite : settings.laws.IsFinite) (consistent : settings.laws.Consistent)
    (ordinary : ∀ entry ∈ actions, entry.2.Ordinary) (sane : course.caster.Sane settings) :
    ∃ last, course.run settings actions = .ok last ∧ last.caster.Sane settings := by
  have total (entry : UInt64 × Action) (member : entry ∈ actions) (state : Course)
      (held : state.caster.Sane settings) :
      ∃ next, state.step settings entry.1 entry.2 = .ok next ∧ next.caster.Sane settings := by
    obtain ⟨answer, next, performed⟩ := perform_ok consistent held.follows entry.1 entry.2
    refine ⟨_, Course.step_ok performed, (perform_steps held.follows performed).follows, ?_⟩
    exact perform_isFinite finite held.follows (ordinary entry member) performed held.finite
  exact Fault.foldlM_ok total sane

theorem default_isFinite : ({} : Settings).laws.IsFinite := by
  rw [Laws.IsFinite]
  decide

theorem new_run_finite (finite : settings.laws.IsFinite) (consistent : settings.laws.Consistent)
    (ids : IdSupply) {actions : List (UInt64 × Action)}
    (ordinary : ∀ entry ∈ actions, entry.2.Ordinary) :
    ∃ course, (Course.start (.new settings ids)).run settings actions = .ok course ∧
      ∀ x ∈ course.caster.session.reality.reals, Number.isFinite x = true := by
  have fresh : Sane (.new settings ids) settings :=
    ⟨new_follows settings ids, Reality.initial_isFinite⟩
  obtain ⟨course, ran, sane⟩ :=
    @run_sane settings (Course.start (.new settings ids)) actions finite consistent ordinary fresh
  refine ⟨course, ran, fun x member => ?_⟩
  rw [Number.isFinite_eq]
  exact sane.finite x member

theorem session_finite (settings : Settings) (finite : settings.laws.IsFinite)
    (consistent : settings.laws.Consistent) (ids : IdSupply) (actions : List (UInt64 × Action))
    (ordinary : ∀ entry ∈ actions, entry.2.Ordinary) :
    ∃ course, (Course.start (.new settings ids)).run settings actions = .ok course ∧
      (∀ x ∈ course.caster.session.reality.reals,
        x.isFinite = true ∧ (Number.wire? x).isSome = true) ∧
      ∀ savedAt, ∃ restored,
        (Snapshot.capture course.caster.session savedAt).restore = .ok restored := by
  obtain ⟨course, ran, numbers⟩ := new_run_finite finite consistent ids ordinary
  refine ⟨course, ran, fun x member => ?_, fun savedAt => ?_⟩
  · rw [← Number.isFinite_eq]
    exact ⟨numbers x member, Number.wire?_isSome (numbers x member)⟩
  · exact ⟨_, Snapshot.restore_finite numbers savedAt⟩

theorem session_finite_zone :
    let settings : Settings := {}
    let script := "focus: Entropy\nanchor: Zone (radius: 2.5)\nshift: +5%\ncost: 5E\n" ++
      "intent: \"root_entropy\"\nseal"
    let actions : List (UInt64 × Action) :=
      [(10, .cast script), (20, .engine (.override .time 0.3)), (30, .regenerate), (40, .tick)]
    (settings.laws.IsFinite ∧ settings.laws.Consistent ∧ ∀ entry ∈ actions, entry.2.Ordinary) ∧
      ∃ course, (Course.start (.new settings (.ofSeed 0))).run settings actions = .ok course ∧
        (∀ x ∈ course.caster.session.reality.reals,
          x.isFinite = true ∧ (Number.wire? x).isSome = true) ∧
        ∀ savedAt, ∃ restored,
          (Snapshot.capture course.caster.session savedAt).restore = .ok restored := by
  intro settings script actions
  have consistent : settings.laws.Consistent := ⟨by decide, by decide⟩
  have held : (0.3 : Float).isFinite = true := by decide
  have ordinary : ∀ entry ∈ actions, entry.2.Ordinary := by
    simp [actions, Action.Ordinary, Engine.Operation.Within, held]
  exact ⟨⟨default_isFinite, consistent, ordinary⟩,
    session_finite settings default_isFinite consistent (.ofSeed 0) actions ordinary⟩

end Caster

end Spellcraft
