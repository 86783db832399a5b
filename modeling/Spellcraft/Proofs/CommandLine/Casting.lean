import Spellcraft.CommandLine.Run
import Spellcraft.Proofs.Caster.Energy
import Spellcraft.Proofs.Caster.Finite
import Spellcraft.Proofs.Digest
import Spellcraft.Proofs.Wire.Finite

set_option autoImplicit false

namespace Spellcraft

theorem Chronicle.recordCast_isSome {chronicle : Chronicle} {caller script : String}
    {cost : UInt32} {now : UInt64} {spells : List Spell}
    (told : Spell.ofScript script = .ok spells) :
    (chronicle.recordCast caller script cost now).isSome = true := by
  by_cases blank : Text.allBlank script.toList = true
  · rw [Spell.ofScript, Script.read, if_pos blank] at told
    cases told
  · rw [recordCast, if_neg blank]
    rfl

namespace Caster

variable {caster next : Caster} {now : UInt64} {script : String}

theorem cast_read {report : CastReport} (ran : caster.cast now script = .ok (.ok report, next)) :
    ∃ spells, Spell.ofScript script = .ok spells := by
  cases told : Spell.ofScript script with
  | ok spells => exact ⟨spells, rfl⟩
  | error error =>
    rw [cast_error told] at ran
    cases ran

theorem cast_unread {error : ScriptError}
    (ran : caster.cast now script = .ok (.error error, next)) :
    Spell.ofScript script = .error error ∧ next = caster := by
  cases told : Spell.ofScript script with
  | ok spells =>
    rw [cast, compile, told] at ran
    simp only [Fault.ok_bind, Fault.pure_eq_ok] at ran
    obtain ⟨⟨report, after⟩, -, same⟩ := Fault.bind_eq_ok.1 ran
    simp at same
  | error failure =>
    rw [cast_error told] at ran
    obtain ⟨same, rfl⟩ := Prod.mk.inj (Except.ok.inj ran)
    exact ⟨congrArg _ (Except.error.inj same), rfl⟩

theorem cast_ok {settings : Settings} (consistent : settings.laws.Consistent)
    (follows : caster.Follows settings) (now : UInt64) (script : String) :
    ∃ result next, caster.cast now script = .ok (result, next) := by
  obtain ⟨answer, next, performed⟩ := perform_ok consistent follows now (.cast script)
  obtain ⟨⟨result, last⟩, ran, -⟩ := Fault.bind_eq_ok.1 performed
  exact ⟨result, last, ran⟩

theorem resume_follows {settings : Settings} {ids : IdSupply} {session : Session}
    (resumed : resume settings ids now session = .ok next) : next.Follows settings := by
  obtain ⟨⟨count, settled⟩, ticked, done⟩ := Fault.bind_eq_ok.1 resumed
  cases done
  exact (tick_steps ⟨rfl, rfl, rfl, Ledger.ofBalance_energy_le _ _⟩ ticked).follows

end Caster

namespace CommandLine

section Files

variable {files : Files} {path : String} {contents : ByteArray}

-- Whatever is written there is written whole.
def Files.Writable (files : Files) (path : String) : Prop :=
  ∀ contents, (files.write path contents).2 = true

-- Where a path leads depends on the directories alone.
theorem Files.place?_congr {left right : Files} (same : left.directories = right.directories) :
    left.place? path = right.place? path := by
  have step : left.step = right.step := by
    funext place name
    rw [step, step, isDirectory, isDirectory, same]
  rw [place?, place?, step]

theorem Files.read?_put? {written : Files} (put : files.put? path contents = some written) :
    written.read? path = some contents := by
  cases found : files.place? path with
  | none => simp [put?, found] at put
  | some place =>
    simp only [put?, found, Option.ite_none_left_eq_some, Option.some.injEq] at put
    obtain ⟨-, rfl⟩ := put
    have sameDirectories (entries : List (List String × ByteArray)) :
        Files.place? ⟨entries, files.directories⟩ path = some place :=
      (place?_congr rfl).trans found
    rw [read?, sameDirectories]
    simp

theorem Files.read?_write {written : Files} (whole : files.write path contents = (written, true)) :
    written.read? path = some contents := by
  rw [write] at whole
  split at whole
  · cases whole
  · split at whole
    · next put =>
      obtain ⟨rfl, -⟩ := Prod.mk.inj whole
      exact read?_put? put
    · cases whole

theorem Files.readText?_write {written : Files} {text : String}
    (whole : files.write path text.toUTF8 = (written, true)) :
    written.readText? path = some text := by
  have decoded : String.fromUTF8? text.toUTF8 = some text := by
    rw [String.toUTF8_eq_toByteArray, String.fromUTF8?, dif_pos text.isValidUTF8]
    rfl
  rw [readText?, read?_write whole]
  exact decoded

end Files

section Reading

variable {input : Input} {script : String}

def Input.Unreadable (input : Input) : Prop :=
  input.failure.isSome = true ∨ String.fromUTF8? input.bytes = none

theorem Input.text_eq_ok :
    input.text = .ok script ↔
      input.failure = none ∧ String.fromUTF8? input.bytes = some script := by
  rw [text, decode]
  cases input.failure with
  | some message => simp
  | none => cases String.fromUTF8? input.bytes <;> simp

theorem Input.text_eq_error {message : String} (failed : input.text = .error message) :
    input.Unreadable := by
  rw [text, decode] at failed
  split at failed
  next failure => exact .inl (failure ▸ rfl)
  next =>
    split at failed
    next => cases failed
    next undecoded => exact .inr undecoded

theorem Input.empty_readable : ¬ Input.empty.Unreadable := by
  have decoded : String.fromUTF8? Input.empty.bytes = some "" := by decide
  rintro (failed | undecoded)
  · cases failed
  · rw [decoded] at undecoded
    cases undecoded

end Reading

/-- The scripts that names lead to: those of files, and for a hyphen what is left of the input. -/
inductive Supplies (files : Files) : Input → List String → List String → Prop where
  | nil (input : Input) : Supplies files input [] []
  | input {input : Input} {script : String} {names scripts : List String}
      (whole : input.failure = none) (decoded : String.fromUTF8? input.bytes = some script)
      (rest : Supplies files .empty names scripts) :
      Supplies files input ("-" :: names) (script :: scripts)
  | file {input : Input} {name script : String} {names scripts : List String} (isFile : name ≠ "-")
      (read : files.readText? name = some script) (rest : Supplies files input names scripts) :
      Supplies files input (name :: names) (script :: scripts)

/-- Scripts cast one after another, each at its reading of the clock. One that says no spells is
passed over. -/
inductive Casts (clock : Nat → UInt64) : Nat → List String → Caster → Caster → Prop where
  | nil (index : Nat) (caster : Caster) : Casts clock index [] caster caster
  | skip {index : Nat} {script : String} {scripts : List String} {caster last : Caster}
      {error : ScriptError} (unread : Spell.ofScript script = .error error)
      (rest : Casts clock (index + 1) scripts caster last) :
      Casts clock index (script :: scripts) caster last
  | cast {index : Nat} {script : String} {scripts : List String} {caster next last : Caster}
      {report : CastReport} (done : caster.cast (clock index) script = .ok (.ok report, next))
      (rest : Casts clock (index + 1) scripts next last) :
      Casts clock index (script :: scripts) caster last

/-- The caster that a run starts from: a new one if nothing is kept at the path, otherwise the one
kept there, with everything settled that has become due. -/
inductive Opens (world : World) (settings : Settings) (path : String) : Caster → Prop where
  | fresh (absent : world.files.has path = false) :
      Opens world settings path (.new settings world.ids)
  | resumed {text : String} {snapshot : Snapshot} {session : Session} {caster : Caster}
      (kept : world.files.readText? path = some text)
      (loaded : Snapshot.ofFileText? text = some snapshot)
      (restored : snapshot.restore = .ok session)
      (settled : Caster.resume settings world.ids (world.clock 0) session = .ok caster) :
      Opens world settings path caster

def Unopened (files : Files) (path : String) : Prop :=
  files.has path = true ∧ ∀ text snapshot session, files.readText? path = some text →
    Snapshot.ofFileText? text = some snapshot → snapshot.restore ≠ .ok session

def Unloaded (files : Files) (config : Option String) : Prop :=
  ∃ path error, config = some path ∧ Settings.load path (files.read? path) = .error error

def Unread (files : Files) (input : Input) (names : List String) : Prop :=
  ("-" ∈ names ∧ input.Unreadable) ∨ ∃ name ∈ names, name ≠ "-" ∧ files.readText? name = none

theorem Unread.mono {files : Files} {input : Input} {names others : List String}
    (unread : Unread files input names) (fewer : names ⊆ others) : Unread files input others := by
  rcases unread with ⟨hyphen, unreadable⟩ | ⟨name, member, missing⟩
  · exact .inl ⟨fewer hyphen, unreadable⟩
  · exact .inr ⟨name, fewer member, missing⟩

-- The input is read once, and what is left of it can be read.
theorem Unread.cons {files : Files} {input left : Input} {name : String} {names : List String}
    (unread : Unread files left names) (passed : left = input ∨ left = .empty) :
    Unread files input (name :: names) := by
  rcases passed with rfl | rfl
  · exact unread.mono (List.subset_cons_self name names)
  · rcases unread with ⟨-, unreadable⟩ | ⟨other, member, missing⟩
    · exact absurd unreadable Input.empty_readable
    · exact .inr ⟨other, List.mem_cons_of_mem name member, missing⟩

/-- A run stops for a cause that it names, or because its laws contradict one another. -/
inductive Caused (settings : Settings) (cause : Prop) : Stop → Prop where
  | failed (message : String) (found : cause) : Caused settings cause (.failed message)
  | broken (fault : Fault) (inconsistent : ¬ settings.laws.Consistent) :
      Caused settings cause (.broken fault)

theorem Caused.mono {settings : Settings} {cause other : Prop} {stop : Stop}
    (caused : Caused settings cause stop) (weaker : cause → other) :
    Caused settings other stop := by
  cases caused with
  | failed message found => exact .failed message (weaker found)
  | broken fault inconsistent => exact .broken fault inconsistent

section Casting

variable {world : World} {settings : Settings} {files : Files} {path caller name : String}
  {names : List String} {clock : Nat → UInt64} {progress next last : Progress}

theorem loadSettings_stops {config : Option String} {stop : Stop}
    (failed : loadSettings files config = .error stop) :
    stop.status = 1 ∧ Unloaded files config := by
  cases config with
  | none => cases failed
  | some path =>
    rw [loadSettings] at failed
    split at failed
    · cases failed
    · next error unloaded =>
      obtain rfl := Except.error.inj failed
      exact ⟨rfl, path, error, rfl, unloaded⟩

theorem readScript_eq_ok {input left : Input} {script : String} :
    readScript files input name = .ok (script, left) ↔
      (name = "-" ∧ input.failure = none ∧ String.fromUTF8? input.bytes = some script ∧
        left = .empty) ∨
      (name ≠ "-" ∧ files.readText? name = some script ∧ left = input) := by
  by_cases hyphen : name = "-"
  · rw [readScript, if_pos hyphen, ← and_assoc (a := input.failure = none), ← Input.text_eq_ok]
    cases input.text <;> simp [hyphen, eq_comm]
  · cases found : files.readText? name <;> simp [readScript, hyphen, found, eq_comm]

theorem readScript_stops {input : Input} {stop : Stop}
    (failed : readScript files input name = .error stop) :
    Caused settings (Unread files input [name]) stop := by
  have member := List.mem_singleton_self name
  by_cases hyphen : name = "-"
  · rw [readScript, if_pos hyphen] at failed
    cases read : input.text with
    | ok script => simp [read] at failed
    | error message =>
      simp only [read, Except.error.injEq] at failed
      obtain rfl := failed
      exact .failed _ (.inl ⟨hyphen ▸ member, Input.text_eq_error read⟩)
  · cases found : files.readText? name with
    | none =>
      simp only [readScript, hyphen, found, if_false, Except.error.injEq] at failed
      obtain rfl := failed
      exact .failed _ (.inr ⟨name, member, hyphen, found⟩)
    | some script => simp [readScript, hyphen, found] at failed

-- The chronicle refuses blank scripts alone, and these are not read as spells.
theorem reportCast_read {script : String} {spells : List Spell} {now : UInt64} {report : CastReport}
    (told : Spell.ofScript script = .ok spells) :
    ∃ next, reportCast progress caller name script now report = .ok next ∧
      next.caster = progress.caster ∧ next.input = progress.input := by
  have recorded : (progress.chronicle.recordCast caller script report.cost now).isSome = true :=
    Chronicle.recordCast_isSome told
  obtain ⟨⟨fresh, chronicle⟩, kept⟩ := Option.isSome_iff_exists.1 recorded
  rw [reportCast, kept]
  exact ⟨_, rfl, rfl, rfl⟩

theorem castInput_eq_ok {now : UInt64}
    (done : castInput files caller now progress name = .ok next) :
    ∃ script, readScript files progress.input name = .ok (script, next.input) ∧
      ((∃ error, Spell.ofScript script = .error error ∧ next.caster = progress.caster) ∨
        ∃ report, progress.caster.cast now script = .ok (.ok report, next.caster)) := by
  rw [castInput] at done
  cases read : readScript files progress.input name with
  | error stop => simp [read] at done
  | ok found =>
    obtain ⟨script, input⟩ := found
    simp only [read] at done
    cases ran : progress.caster.cast now script with
    | error fault => simp [ran] at done
    | ok result =>
      obtain ⟨outcome, caster⟩ := result
      cases outcome with
      | error error =>
        simp only [ran, Except.ok.injEq] at done
        obtain ⟨unread, rfl⟩ := Caster.cast_unread ran
        subst done
        exact ⟨script, rfl, .inl ⟨error, unread, rfl⟩⟩
      | ok report =>
        simp only [ran] at done
        obtain ⟨spells, told⟩ := Caster.cast_read ran
        obtain ⟨reported, same, sameCaster, sameInput⟩ := reportCast_read told
        rw [same] at done
        obtain rfl := Except.ok.inj done
        rw [sameInput, sameCaster]
        exact ⟨script, rfl, .inr ⟨report, ran⟩⟩

theorem castInput_stops {now : UInt64} {printed : String} {stop : Stop}
    (follows : progress.caster.Follows settings)
    (failed : castInput files caller now progress name = .error (printed, stop)) :
    Caused settings (Unread files progress.input [name]) stop := by
  rw [castInput] at failed
  cases read : readScript files progress.input name with
  | error early =>
    simp only [read, Except.error.injEq, Prod.mk.injEq] at failed
    obtain ⟨-, rfl⟩ := failed
    exact readScript_stops read
  | ok found =>
    obtain ⟨script, input⟩ := found
    simp only [read] at failed
    cases ran : progress.caster.cast now script with
    | error fault =>
      simp only [ran, Except.error.injEq, Prod.mk.injEq] at failed
      obtain ⟨-, rfl⟩ := failed
      refine .broken fault fun consistent => ?_
      obtain ⟨result, caster, done⟩ := Caster.cast_ok consistent follows now script
      rw [ran] at done
      cases done
    | ok result =>
      obtain ⟨outcome, caster⟩ := result
      cases outcome with
      | error error => simp [ran] at failed
      | ok report =>
        simp only [ran] at failed
        obtain ⟨spells, told⟩ := Caster.cast_read ran
        obtain ⟨reported, same, -, -⟩ := reportCast_read told
        rw [same] at failed
        cases failed

theorem castInput_follows {now : UInt64} (follows : progress.caster.Follows settings)
    (done : castInput files caller now progress name = .ok next) :
    next.caster.Follows settings := by
  obtain ⟨script, -, ⟨error, unread, same⟩ | ⟨report, ran⟩⟩ := castInput_eq_ok done
  · rwa [same]
  · exact (Caster.cast_steps follows ran).follows

theorem castInputs_eq_ok {index : Nat}
    (done : castInputs files caller clock index names progress = .ok last) :
    ∃ scripts, Supplies files progress.input names scripts ∧
      Casts clock index scripts progress.caster last.caster := by
  induction names generalizing index progress with
  | nil =>
    obtain rfl := Except.ok.inj done
    exact ⟨[], .nil _, .nil index _⟩
  | cons name others ih =>
    rw [castInputs] at done
    cases first : castInput files caller (clock index) progress name with
    | error stopped => simp [first] at done
    | ok next =>
      simp only [first] at done
      obtain ⟨scripts, supplies, casts⟩ := ih done
      obtain ⟨script, read, outcome⟩ := castInput_eq_ok first
      have supplied : Supplies files progress.input (name :: others) (script :: scripts) := by
        rcases readScript_eq_ok.1 read with ⟨rfl, whole, decoded, left⟩ | ⟨isFile, found, left⟩
        · rw [left] at supplies
          exact .input whole decoded supplies
        · rw [left] at supplies
          exact .file isFile found supplies
      refine ⟨script :: scripts, supplied, ?_⟩
      rcases outcome with ⟨error, unread, same⟩ | ⟨report, ran⟩
      · rw [same] at casts
        exact .skip unread casts
      · exact .cast ran casts

theorem castInputs_stops {index : Nat} {printed : String} {stop : Stop}
    (follows : progress.caster.Follows settings)
    (failed : castInputs files caller clock index names progress = .error (printed, stop)) :
    Caused settings (Unread files progress.input names) stop := by
  induction names generalizing index progress with
  | nil => cases failed
  | cons name others ih =>
    rw [castInputs] at failed
    cases first : castInput files caller (clock index) progress name with
    | error stopped =>
      simp only [first, Except.error.injEq] at failed
      rw [failed] at first
      refine (castInput_stops follows first).mono fun unread => unread.mono ?_
      simp
    | ok next =>
      simp only [first] at failed
      obtain ⟨script, read, -⟩ := castInput_eq_ok first
      have passed : next.input = progress.input ∨ next.input = .empty := by
        rcases readScript_eq_ok.1 read with ⟨-, -, -, left⟩ | ⟨-, -, left⟩
        · exact .inr left
        · exact .inl left
      exact (ih (castInput_follows follows first) failed).mono fun unread => unread.cons passed

theorem openSession_eq_ok {opened : Caster}
    (done : openSession world settings (some path) = .ok opened) :
    Opens world settings path opened := by
  rw [openSession] at done
  split at done
  · split at done
    · cases done
    · next session restored =>
      split at done
      · next caster settled =>
        obtain rfl := Except.ok.inj done
        rw [restoreSession] at restored
        split at restored
        · cases restored
        · next snapshot loaded =>
          obtain ⟨text, kept, loaded⟩ := Option.bind_eq_some_iff.1 loaded
          have restored : snapshot.restore = .ok session := by
            cases result : snapshot.restore with
            | error error => simp [result, Except.toOption] at restored
            | ok found => simpa [result, Except.toOption] using restored
          exact .resumed kept loaded restored settled
      · cases done
  · next absent =>
    obtain rfl := Except.ok.inj done
    exact .fresh (Bool.eq_false_iff.2 absent)

theorem Opens.follows {opened : Caster} (opens : Opens world settings path opened) :
    opened.Follows settings := by
  cases opens with
  | fresh => exact Caster.new_follows settings world.ids
  | resumed _ _ _ settled => exact Caster.resume_follows settled

theorem Opens.sane {opened : Caster} (finite : settings.laws.IsFinite)
    (opens : Opens world settings path opened) : opened.Sane settings := by
  refine ⟨opens.follows, ?_⟩
  cases opens with
  | fresh => exact Reality.initial_isFinite
  | resumed _ _ restored settled =>
    have before := Snapshot.restore_isFinite restored
    obtain ⟨⟨count, last⟩, ticked, rest⟩ := Fault.bind_eq_ok.1 settled
    cases rest
    exact Caster.tick_isFinite finite ticked before

theorem Casts.sane {index : Nat} {scripts : List String} {caster last : Caster}
    (finite : settings.laws.IsFinite) (casts : Casts clock index scripts caster last)
    (sane : caster.Sane settings) : last.Sane settings := by
  induction casts with
  | nil => exact sane
  | skip _ _ ih => exact ih sane
  | cast done _ ih =>
    have lawful : Laws.IsFinite _ := sane.follows.laws ▸ finite
    exact ih ⟨(Caster.cast_steps sane.follows done).follows,
      Caster.cast_isFinite lawful done sane.finite⟩

theorem openSession_stops {stop : Stop}
    (failed : openSession world settings (some path) = .error stop) :
    Caused settings (Unopened world.files path) stop := by
  rw [openSession] at failed
  split at failed
  · next present =>
    split at failed
    · next unrestored =>
      obtain rfl := Except.error.inj failed
      refine .failed _ ⟨present, fun text snapshot session kept loaded restored => ?_⟩
      simp [restoreSession, kept, loaded, restored, Except.toOption] at unrestored
    · next session _ =>
      split at failed
      · cases failed
      · next fault broken =>
        obtain rfl := Except.error.inj failed
        refine .broken fault fun consistent => ?_
        obtain ⟨caster, resumed⟩ :=
          Caster.resume_ok consistent world.ids (world.clock 0) session
        rw [broken] at resumed
        cases resumed
  · cases failed

end Casting

variable {world : World} {settings : Settings} {config : Option String} {path caller : String}
  {names : List String}

theorem castAll_eq_ok {closing : Closing}
    (done : castAll world settings names (some path) caller = .ok closing) :
    ∃ opened scripts last, Opens world settings path opened ∧
      Supplies world.files world.input names scripts ∧ Casts world.clock 1 scripts opened last ∧
      closing.session = some (path,
        (Snapshot.capture last.session (world.clock (names.length + 1))).fileText) := by
  rw [castAll] at done
  cases first : openSession world settings (some path) with
  | error stop => simp [first] at done
  | ok opened =>
    simp only [first] at done
    obtain ⟨last, ran, ends⟩ := Fault.bind_eq_ok.1 done
    obtain ⟨scripts, supplies, casts⟩ := castInputs_eq_ok ran
    obtain rfl := Except.ok.inj ends
    exact ⟨opened, scripts, last.caster, openSession_eq_ok first, supplies, casts, rfl⟩

theorem castAll_stops {printed : String} {stop : Stop}
    (failed : castAll world settings names (some path) caller = .error (printed, stop)) :
    Caused settings (Unopened world.files path ∨ Unread world.files world.input names) stop := by
  rw [castAll] at failed
  cases first : openSession world settings (some path) with
  | error early =>
    simp only [first, Except.error.injEq, Prod.mk.injEq] at failed
    obtain ⟨-, rfl⟩ := failed
    exact (openSession_stops first).mono .inl
  | ok opened =>
    simp only [first] at failed
    cases ran : castInputs world.files caller world.clock 1 names
        ⟨opened, .new world.phenomenonIds, world.input, ""⟩ with
    | error stopped =>
      simp only [ran, bind, Except.bind, Except.error.injEq] at failed
      rw [failed] at ran
      exact (castInputs_stops (openSession_eq_ok first).follows ran).mono .inr
    | ok last =>
      simp only [ran, Fault.ok_bind] at failed
      cases failed

theorem ending_kept {files : Files} {closing : Closing} {text : String}
    (writable : files.Writable path) (keeps : closing.session = some (path, text)) :
    ∃ written : Files, closing.ending files = ⟨0, closing.printed, none, written⟩ ∧
      written.readText? path = some text := by
  have whole : files.write path text.toUTF8 = ((files.write path text.toUTF8).1, true) :=
    Prod.ext rfl (writable _)
  refine ⟨(files.write path text.toUTF8).1, ?_, Files.readText?_write whole⟩
  rw [Closing.ending, keeps]
  simp only
  rw [whole]

-- Each way in which the run can end, with what is known of it there.
theorem run_cast {arguments : List String} (writable : world.files.Writable path)
    (asked : Arguments.read arguments = some ⟨config, .cast names (some path) caller⟩) :
    (∃ stop, run world arguments = .early world.files ("", stop) ∧
      loadSettings world.files config = .error stop) ∨
    ∃ settings, loadSettings world.files config = .ok settings ∧
      ((∃ stopped, run world arguments = .early world.files stopped ∧
        castAll world settings names (some path) caller = .error stopped) ∨
      ∃ closing written text, run world arguments = ⟨0, closing.printed, none, written⟩ ∧
        castAll world settings names (some path) caller = .ok closing ∧
        closing.session = some (path, text) ∧ written.readText? path = some text) := by
  cases load : loadSettings world.files config with
  | error stop =>
    refine .inl ⟨stop, ?_, rfl⟩
    simp only [run, attempt, asked, load]
  | ok settings =>
    refine .inr ⟨settings, rfl, ?_⟩
    have attempted : attempt world arguments =
        castAll world settings names (some path) caller := by
      simp only [attempt, asked, load, act]
    cases ran : castAll world settings names (some path) caller with
    | error stopped =>
      refine .inl ⟨stopped, ?_, rfl⟩
      rw [run, attempted, ran]
    | ok closing =>
      obtain ⟨opened, scripts, last, -, -, -, keeps⟩ := castAll_eq_ok ran
      obtain ⟨written, ending, holds⟩ := ending_kept writable keeps
      refine .inr ⟨closing, written, _, ?_, rfl, keeps, holds⟩
      rw [run, attempted, ran]
      exact ending

/-- A run that casts scripts on a kept session keeps what all the casts left, or leaves every file
as it was. It fails only for want of something that it reads, and the chronicle refuses no script
that was read. -/
theorem cast_run_whole {arguments : List String}
    (asked : Arguments.read arguments = some ⟨config, .cast names (some path) caller⟩)
    (writable : world.files.Writable path) :
    let ending := run world arguments
    (ending.status = 0 → ∃ settings opened scripts last,
      loadSettings world.files config = .ok settings ∧ Opens world settings path opened ∧
      Supplies world.files world.input names scripts ∧ Casts world.clock 1 scripts opened last ∧
      ∃ text snapshot, ending.files.readText? path = some text ∧
        Snapshot.ofFileText? text = some snapshot ∧ snapshot.schema = 2 ∧
        snapshot.savedAt = world.clock (names.length + 1) ∧
        snapshot.digest = Digest.hexText (Digest.bytesOf snapshot.payload) ∧
        snapshot.payload = last.session.text ∧
        (settings.laws.IsFinite → ∀ x ∈ last.session.reality.reals, x.isFinite = true) ∧
        ((∀ x ∈ last.session.reality.reals, x.isFinite = true) →
          snapshot.restore = .ok (last.session.mapReals Json.readAs)) ∧
        (last.session.ReadsBack → snapshot.restore = .ok last.session)) ∧
    (ending.status ≠ 0 → ending.files = world.files) ∧
    (ending.status = 1 → Unloaded world.files config ∨ Unopened world.files path ∨
      Unread world.files world.input names) ∧
    (ending.status ≠ 0 → ending.status ≠ 1 → ∃ settings,
      loadSettings world.files config = .ok settings ∧ ¬ settings.laws.Consistent) ∧
    ∀ (chronicle : Chronicle) (teller script : String) (spells : List Spell) (cost : UInt32)
      (now : UInt64), Spell.ofScript script = .ok spells →
        (chronicle.recordCast teller script cost now).isSome = true := by
  intro ending
  have recorded (chronicle : Chronicle) (teller script : String) (spells : List Spell)
      (cost : UInt32) (now : UInt64) (told : Spell.ofScript script = .ok spells) :
      (chronicle.recordCast teller script cost now).isSome = true :=
    Chronicle.recordCast_isSome told
  rcases run_cast writable asked with ⟨stop, early, unloaded⟩ |
    ⟨settings, loaded, ⟨⟨printed, stop⟩, early, stopped⟩ |
      ⟨closing, written, text, whole, done, keeps, holds⟩⟩
  · obtain ⟨one, missing⟩ := loadSettings_stops unloaded
    have status : ending.status = 1 := (congrArg Ending.status early).trans one
    refine ⟨fun ended => ?_, fun _ => congrArg Ending.files early, fun _ => .inl missing,
      fun _ other => absurd status other, recorded⟩
    rw [status] at ended
    cases ended
  · have files : ending.files = world.files := congrArg Ending.files early
    have status : ending.status = stop.status := congrArg Ending.status early
    rw [status]
    cases castAll_stops stopped with
    | failed message found =>
      exact ⟨nofun, fun _ => files, fun _ => .inr found, fun _ other => absurd rfl other,
        recorded⟩
    | broken fault inconsistent =>
      exact ⟨nofun, fun _ => files, nofun, fun _ _ => ⟨settings, loaded, inconsistent⟩, recorded⟩
  · have status : ending.status = 0 := congrArg Ending.status whole
    refine ⟨fun _ => ?_, fun other => absurd status other, fun failed => ?_,
      fun other => absurd status other, recorded⟩
    · obtain ⟨opened, scripts, last, opens, supplies, casts, same⟩ := castAll_eq_ok done
      obtain ⟨-, rfl⟩ := Prod.mk.inj (Option.some.inj (keeps.symm.trans same))
      have files : ending.files = written := congrArg Ending.files whole
      refine ⟨settings, opened, scripts, last, loaded, opens, supplies, casts, _, _,
        (congrArg (Files.readText? · path) files).trans holds, Snapshot.ofFileText?_fileText _, rfl,
        rfl, Digest.ofText_eq_hexText _, rfl, fun finite => ?_, fun finite => ?_,
        fun readsBack => Snapshot.restore_capture readsBack _⟩
      · exact (casts.sane finite (opens.sane finite)).finite
      · refine Snapshot.restore_finite (fun x member => ?_) _
        rw [Number.isFinite_eq]
        exact finite x member
    · rw [status] at failed
      cases failed

-- A second script that is missing, or that is no text, undoes the first cast; a blank one does not.
theorem cast_run_whole_unread :
    let script := "focus: Probability\nanchor: Self\nshift: +15%\ncost: 30E\nintent: \"x\" seal"
    let world (input : Input) : World := {
      files := ⟨[(["first"], script.toUTF8)], []⟩
      input := input
      clock := fun index => 1000 * index.toUInt64
      ids := .ofSeed 1
      phenomenonIds := .ofSeed 2 }
    let missing := run (world " \n") ["cast", "first", "second", "--session", "kept"]
    let garbled := run (world ⟨⟨#[0x66, 0xFF]⟩, none⟩) ["cast", "first", "-", "--session", "kept"]
    let blank := run (world " \n") ["cast", "first", "-", "--session", "kept"]
    missing.status = 1 ∧ missing.files.readText? "kept" = none ∧
    garbled.status = 1 ∧ garbled.files.readText? "kept" = none ∧
    blank.status = 0 ∧ ∃ text snapshot session, blank.files.readText? "kept" = some text ∧
      Snapshot.ofFileText? text = some snapshot ∧ snapshot.savedAt = 3000 ∧
      snapshot.restore = .ok session ∧ session.reality.probability = 15.0 ∧
      session.reality.effects.length = 1 ∧ session.balance.energy = 88 := by
  intro script world missing garbled blank
  have writable (input : Input) : (world input).files.Writable "kept" := fun contents => rfl
  have asked (second : String) (known : second ∈ ["second", "-"]) :
      Arguments.read ["cast", "first", second, "--session", "kept"] =
        some ⟨none, .cast ["first", second] (some "kept") defaultCaller⟩ := by
    revert second
    decide +kernel
  have lost : missing.status = 1 := by decide +kernel
  have lost' : garbled.status = 1 := by decide +kernel
  have ends : blank.status = 0 := by decide +kernel
  have absent : (world " \n").files.readText? "kept" = none := by decide +kernel
  have left := (cast_run_whole (asked "second" (by decide)) (writable " \n")).2.1
    (by rw [lost]; decide)
  have left' := (cast_run_whole (asked "-" (by decide)) (writable ⟨⟨#[0x66, 0xFF]⟩, none⟩)).2.1
    (by rw [lost']; decide)
  obtain ⟨settings, opened, scripts, last, loaded, opens, supplies, casts, text, snapshot, holds,
    loads, -, savedAt, -, -, -, -, restored⟩ :=
    (cast_run_whole (asked "-" (by decide)) (writable " \n")).1 ends
  refine ⟨lost, left ▸ absent, lost', left' ▸ absent, ends, text, snapshot, last.session, holds,
    loads, savedAt, ?_⟩
  have spoken : (world " \n").files.readText? "first" = some script := by decide +kernel
  have typed : String.fromUTF8? (world " \n").input.bytes = some " \n" := by decide +kernel
  have unsaid : ∀ spells, Spell.ofScript " \n" ≠ .ok spells := by
    have failed : (Spell.ofScript " \n").toOption = none := by decide +kernel
    intro spells said
    rw [said] at failed
    cases failed
  have facts : ((Caster.new {} (.ofSeed 1)).cast 1000 script).map (fun ran =>
      (ran.1.toOption.isSome, decide ran.2.session.ReadsBack, ran.2.session.reality.probability,
        ran.2.session.reality.effects.length, ran.2.session.balance.energy)) =
      .ok (true, true, 15.0, 1, 88) := by decide +kernel
  cases loaded
  cases opens with
  | resumed kept =>
    rw [absent] at kept
    cases kept
  | fresh =>
    generalize named : "first" = name at supplies
    cases supplies with
    | input => exact absurd named (by decide)
    | file isFile read rest =>
      rw [← named, spoken] at read
      cases read
      cases rest with
      | file isFile' => exact absurd rfl isFile'
      | input whole decoded rest =>
        rw [typed] at decoded
        cases decoded
        cases rest
        cases casts with
        | skip unread =>
          rw [Caster.cast_error unread] at facts
          simp [Except.map, Except.toOption] at facts
        | cast done rest =>
          cases rest with
          | cast done' =>
            obtain ⟨spells, said⟩ := Caster.cast_read done'
            exact absurd said (unsaid spells)
          | skip _ rest =>
            cases rest
            have ran : (Caster.new {} (.ofSeed 1)).cast 1000 script = _ := done
            simp only [ran, Except.map, Except.ok.injEq, Prod.mk.injEq, decide_eq_true_eq] at facts
            obtain ⟨-, readsBack, probability, effects, energy⟩ := facts
            exact ⟨restored readsBack, probability, effects, energy⟩

end CommandLine

end Spellcraft
