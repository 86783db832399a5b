import Spellcraft.Proofs.Caster.Tick
import Spellcraft.Proofs.Script.Layout
import Spellcraft.Terminal

set_option autoImplicit false

namespace Spellcraft

theorem Caster.cast_congr {script other : String}
    (same : Spell.ofScript script = Spell.ofScript other) (caster : Caster) (now : UInt64) :
    caster.cast now script = caster.cast now other := by
  simp only [cast, compile, same]

def Script.Drafts (line : List Char) : Prop :=
  Text.Blank line ∨ Text.trim line = "bind".toList ∨ ∃ clause raw, Clause.Starts clause line raw

theorem Script.drafts_iff {line : List Char} :
    Script.Drafts line ↔ Text.allBlank line = true ∨ Script.isBind line = true ∨
      (Clause.ofLine? line).isSome = true := by
  rw [Drafts, Text.allBlank_iff, isBind_iff, Option.isSome_iff_exists]
  refine or_congr Iff.rfl (or_congr Iff.rfl ⟨?_, ?_⟩)
  · rintro ⟨clause, raw, starts⟩
    exact ⟨(clause, Text.trim raw), Clause.ofLine?_eq_some.2 ⟨raw, starts, rfl⟩⟩
  · rintro ⟨⟨clause, value⟩, read⟩
    obtain ⟨raw, starts, -⟩ := Clause.ofLine?_eq_some.1 read
    exact ⟨clause, raw, starts⟩

instance Script.decidableDrafts : DecidablePred Script.Drafts := fun _ =>
  decidable_of_iff _ Script.drafts_iff.symm

theorem Text.words_append {word : List Char} (shown : ∀ c ∈ word, isBlank c = false)
    (some : word ≠ []) (rest : List Char) :
    ∃ more others, words (word ++ rest) = (word ++ more) :: others := by
  obtain ⟨more, others, parts⟩ : ∃ more others, rest.splitOnP isBlank = more :: others :=
    List.exists_cons_of_ne_nil (List.splitOnP_ne_nil _ rest)
  have joined : (word ++ rest).splitOnP isBlank = (word ++ more) :: others := by
    clear some
    induction word with
    | nil => exact parts
    | cons c word ih =>
      obtain ⟨first, inside⟩ := List.forall_mem_cons.1 shown
      rw [List.cons_append, List.splitOnP_cons_eq_if_modifyHead, first, ih inside]
      rfl
  refine ⟨more, others.filter fun word => !word.isEmpty, ?_⟩
  rw [words, joined, List.filter_cons_of_pos (by simp [some])]

namespace Command

variable {line : List Char}

theorem ofLine_blank (blank : Text.Blank line) : ofLine line = .nothing := by
  simp [ofLine, Text.trim_eq_nil.2 blank]

theorem ofLine_bind (divider : Text.trim line = "bind".toList) : ofLine line = .bind := by
  rw [ofLine, divider]
  decide

-- The first word of such a text is no parameter, since it holds the colon.
theorem override?_eq_none {key raw : List Char} (shown : ∀ c ∈ key, Text.isBlank c = false) :
    override? (key ++ ':' :: raw) = none := by
  have word_shown : ∀ c ∈ key ++ [':'], Text.isBlank c = false := by
    simpa [or_imp, forall_and] using ⟨shown, by decide⟩
  obtain ⟨more, others, words⟩ := Text.words_append word_shown (by simp) raw
  rw [List.append_assoc, List.singleton_append] at words
  have unnamed : Focus.all.find? (fun focus =>
      focus.name.toList.map Char.toLower == key ++ [':'] ++ more) = none := by
    refine List.find?_eq_none.2 fun focus _ named => ?_
    have absent : ':' ∉ focus.name.toList.map Char.toLower := by cases focus <;> decide
    rw [beq_iff_eq.1 named] at absent
    simp at absent
  rw [override?, words]
  cases others with
  | nil => rfl
  | cons set values => simp only [unnamed, Option.map_none, ite_self]

theorem key_lower (clause : Clause) :
    clause.key.toList.map Char.toLower = clause.key.toList ∧
      ∀ c ∈ clause.key.toList, Text.isBlank c = false := by
  have shown : clause.key.toList.all (!Text.isBlank ·) = true := by cases clause <;> decide
  exact ⟨by cases clause <;> decide, by simpa using shown⟩

theorem ofLine_clause {clause : Clause} {raw : List Char} (starts : clause.Starts line raw) :
    ofLine line = .clause (Text.trim line) := by
  obtain ⟨lower, shown⟩ := key_lower clause
  have lowered : (Text.trim line).map Char.toLower =
      clause.key.toList ++ ':' :: raw.map Char.toLower := by
    rw [starts, List.map_append, lower]
    rfl
  have apart (word : String) (absent : ':' ∉ word.toList) :
      (String.ofList ((Text.trim line).map Char.toLower) = word) = False := by
    refine eq_false ?_
    rintro rfl
    simp [lowered] at absent
  rw [ofLine]
  simp (disch := decide) only [apart, or_self, if_false]
  rw [lowered, override?_eq_none shown]
  rfl

end Command

namespace Terminal

def handleAll (terminal : Terminal) :
    List (UInt64 × String) → Except Fault (List Reply × Terminal)
  | [] => .ok ([], terminal)
  | (now, line) :: later => do
    let (reply, next) ← terminal.handle now line
    let (replies, last) ← next.handleAll later
    return (reply :: replies, last)

def undiscovered (terminal : Terminal) (script : String) : List Keyword :=
  (Keyword.inText script.toList).filter fun keyword =>
    !(terminal.chronicle.discoveries terminal.caller).contains keyword

def answer (fresh : List Keyword) : Except ScriptError CastReport → String
  | .error error => "Spell error: " ++ error.message
  | .ok report =>
    report.verdict.message ++ "\nCost: " ++ toString report.cost ++ "E. Energy: " ++
      toString report.energy ++ "E." ++
      String.join (fresh.map fun keyword => "\nProtocol discovered: " ++ keyword.name)

theorem reportText_eq (report : CastReport) (fresh : List Keyword) :
    reportText report fresh = answer fresh (.ok report) :=
  rfl

variable {terminal : Terminal} {now : UInt64}

theorem handle_eq (terminal : Terminal) {count : Nat} {caster : Caster}
    (ticked : terminal.caster.tick now = .ok (count, caster)) (line : String) :
    terminal.handle now line = { terminal with caster }.run now (Command.ofLine line.toList) := by
  rw [handle, ticked, Fault.ok_bind]

theorem handle_drafts {line : String} {count : Nat} {caster : Caster}
    (drafts : Script.Drafts line.toList)
    (ticked : terminal.caster.tick now = .ok (count, caster)) :
    terminal.handle now line = .ok (.silent,
      { terminal with caster, draft := terminal.draft ++ Text.tidy [line.toList] }) := by
  rw [handle_eq terminal ticked]
  obtain blank | divider | ⟨clause, raw, starts⟩ := drafts
  · rw [Command.ofLine_blank blank, Text.tidy_cons_blank blank, Text.tidy_nil, List.append_nil]
    rfl
  · have shown : ¬ Text.Blank line.toList := by
      rw [← Text.trim_eq_nil, divider]
      decide
    rw [Command.ofLine_bind divider, Text.tidy_cons_shown shown, Text.tidy_nil, divider]
    rfl
  · have shown : ¬ Text.Blank line.toList := by
      rw [← Text.trim_eq_nil, starts]
      simp
    rw [Command.ofLine_clause starts, Text.tidy_cons_shown shown, Text.tidy_nil]
    rfl

theorem handleAll_concat (entries : List (UInt64 × String)) {middle : Terminal}
    {replies : List Reply} (run : terminal.handleAll entries = .ok (replies, middle))
    (line : String) :
    terminal.handleAll (entries ++ [(now, line)]) = (do
      let (reply, last) ← middle.handle now line
      return (replies ++ [reply], last)) := by
  induction entries generalizing terminal replies with
  | nil =>
    cases run
    rfl
  | cons entry later ih =>
    obtain ⟨⟨reply, next⟩, handled, rest⟩ := Fault.bind_eq_ok.1 run
    obtain ⟨⟨others, last⟩, continued, done⟩ := Fault.bind_eq_ok.1 rest
    cases done
    rw [List.cons_append, handleAll, handled, Fault.ok_bind]
    simp only [ih continued]
    cases middle.handle now line <;> rfl

-- The induction is on the lines before the seal: each is silent and joins the draft, and the caster
-- it leaves ticks at the last reading to where the first one would.
theorem handleAll_drafts {entries : List (UInt64 × String)} {last : UInt64}
    (timeRange : terminal.caster.engine.laws.normalTimeMin ≤
      terminal.caster.engine.laws.normalTimeMax)
    (drafts : ∀ entry ∈ entries, Script.Drafts entry.2.toList)
    (ascending : (entries.map Prod.fst ++ [last]).Pairwise (· ≤ ·))
    {count : Nat} {caster : Caster} (ticked : terminal.caster.tick last = .ok (count, caster)) :
    ∃ recount middle, middle.tick last = .ok (recount, caster) ∧
      terminal.handleAll entries = .ok (entries.map fun _ => .silent, { terminal with
        caster := middle
        draft := terminal.draft ++ Text.tidy (entries.map fun entry => entry.2.toList) }) := by
  induction entries generalizing terminal count with
  | nil => exact ⟨count, terminal.caster, ticked, by simp [handleAll]⟩
  | cons entry later ih =>
    obtain ⟨now, line⟩ := entry
    obtain ⟨first, others⟩ := List.forall_mem_cons.1 drafts
    obtain ⟨before, rest⟩ := List.pairwise_cons.1 ascending
    obtain ⟨fired, middle, early⟩ := Caster.tick_total timeRange now
    have range := Caster.tick_timeRange early timeRange
    obtain ⟨recount, after, again⟩ := Caster.tick_total range last
    obtain rfl : after = caster := Caster.tick_tick (before last (by simp)) early again ticked
    let next : Terminal :=
      { terminal with caster := middle, draft := terminal.draft ++ Text.tidy [line.toList] }
    have handled : terminal.handle now line = .ok (.silent, next) := handle_drafts first early
    have tidied : Text.tidy (line.toList :: later.map fun entry => entry.2.toList) =
        Text.tidy [line.toList] ++ Text.tidy (later.map fun entry => entry.2.toList) :=
      Text.tidy_append [line.toList] _
    obtain ⟨times, late, reaches, run⟩ := @ih next range others rest _ again
    refine ⟨times, late, reaches, ?_⟩
    rw [handleAll, handled, Fault.ok_bind]
    simp only [run, Fault.ok_bind, List.map_cons, tidied, ← List.append_assoc]
    rfl

theorem record_fresh {script : String} (shown : ¬ Text.Blank script.toList)
    (terminal : Terminal) (report : CastReport) :
    (record terminal.chronicle terminal.caller script report now).1 =
      terminal.undiscovered script := by
  rw [← Text.allBlank_iff] at shown
  rw [record, Chronicle.recordCast, if_neg shown]
  cases report.verdict.feedback <;> rfl

-- The cast reads the draft as it would read the lines as they were typed.
theorem castDraft_tidy (terminal : Terminal) (now : UInt64) {lines : List (List Char)}
    (drafted : terminal.draft = Text.tidy lines) {script : String}
    (written : script.toList = Text.joinLines (lines ++ ["seal".toList])) :
    match terminal.caster.cast now script with
    | .error fault => terminal.castDraft now = .error fault
    | .ok (result, caster) => ∃ chronicle,
      terminal.castDraft now = .ok (.print (answer (terminal.undiscovered script) result),
        ⟨caster, chronicle, terminal.caller, []⟩) := by
  obtain ⟨typed, typed_eq⟩ : ∃ typed,
      typed = String.ofList (Text.joinLines (terminal.draft ++ ["seal".toList])) := ⟨_, rfl⟩
  have joined : typed.toList = Text.joinLines (Text.tidy (lines ++ ["seal".toList])) := by
    rw [typed_eq, String.toList_ofList, drafted, Text.tidy_append]
    rfl
  have same : Text.tidy (Text.lines typed.toList) = Text.tidy (Text.lines script.toList) := by
    rw [joined, written, Text.tidy_lines_joinLines_tidy]
  have shown : ¬ Text.Blank typed.toList := by
    have ending : Text.tidy (Text.lines "seal".toList) ≠ [] := by decide
    rw [← Text.tidy_lines_eq_nil, same, written, Text.tidy_lines_joinLines, List.flatMap_append,
      List.append_eq_nil_iff, List.flatMap_singleton]
    exact fun empty => ending empty.2
  have fresh : terminal.undiscovered typed = terminal.undiscovered script := by
    rw [undiscovered, undiscovered, Keyword.inText_congr_tidy same]
  rw [← Caster.cast_congr (Script.read_congr same), castDraft, ← typed_eq]
  cases terminal.caster.cast now typed with
  | error fault => rfl
  | ok ended =>
    obtain ⟨result, caster⟩ := ended
    cases result with
    | error error => exact ⟨_, rfl⟩
    | ok report =>
      refine ⟨(record terminal.chronicle terminal.caller typed report now).2, ?_⟩
      rw [← reportText_eq, ← fresh, ← record_fresh shown]
      rfl

theorem handleAll_seal {entries : List (UInt64 × String)} {last : UInt64} {script : String}
    (empty : terminal.draft = [])
    (timeRange : terminal.caster.engine.laws.normalTimeMin ≤
      terminal.caster.engine.laws.normalTimeMax)
    (drafts : ∀ entry ∈ entries, Script.Drafts entry.2.toList)
    (ascending : (entries.map Prod.fst ++ [last]).Pairwise (· ≤ ·))
    (written : script = "\n".intercalate (entries.map Prod.snd ++ ["seal"]))
    {count : Nat} {caster : Caster} (ticked : terminal.caster.tick last = .ok (count, caster)) :
    match caster.cast last script with
    | .error fault => terminal.handleAll (entries ++ [(last, "seal")]) = .error fault
    | .ok (result, after) => ∃ chronicle,
      terminal.handleAll (entries ++ [(last, "seal")]) = .ok
        (entries.map (fun _ => .silent) ++ [.print (answer (terminal.undiscovered script) result)],
          ⟨after, chronicle, terminal.caller, []⟩) := by
  obtain ⟨recount, middle, again, run⟩ := handleAll_drafts timeRange drafts ascending ticked
  rw [empty, List.nil_append] at run
  have joined : script.toList =
      Text.joinLines (entries.map (fun entry => entry.2.toList) ++ ["seal".toList]) := by
    rw [written, String.toList_intercalate, List.map_append, List.map_map]
    rfl
  have sealed : Command.ofLine "seal".toList = .castDraft := by decide
  have handled := handle_eq ⟨middle, terminal.chronicle, terminal.caller,
    Text.tidy (entries.map fun entry => entry.2.toList)⟩ again "seal"
  have cast := castDraft_tidy ⟨caster, terminal.chronicle, terminal.caller,
    Text.tidy (entries.map fun entry => entry.2.toList)⟩ last rfl joined
  rw [handleAll_concat entries run, handled, sealed]
  simp only [Terminal.run]
  cases ended : caster.cast last script with
  | error fault =>
    simp only [ended] at cast
    rw [cast]
    rfl
  | ok ending =>
    obtain ⟨result, after⟩ := ending
    simp only [ended] at cast
    obtain ⟨chronicle, done⟩ := cast
    refine ⟨chronicle, ?_⟩
    rw [done]
    rfl

theorem ofLine_drafts {line : List Char} (drafts : Script.Drafts line) :
    Command.ofLine line ∈ [.nothing, .bind, .clause (Text.trim line)] := by
  obtain blank | divider | ⟨clause, raw, starts⟩ := drafts
  · simp [Command.ofLine_blank blank]
  · simp [Command.ofLine_bind divider]
  · simp [Command.ofLine_clause starts]

/-- All of a terminal but its chronicle and its caller. -/
def shared (terminal : Terminal) : Caster × List (List Char) :=
  (terminal.caster, terminal.draft)

theorem castDraft_shared {left right : Terminal} (same : left.shared = right.shared)
    (now : UInt64) :
    (left.castDraft now).map (fun reply => reply.2.shared) =
      (right.castDraft now).map fun reply => reply.2.shared := by
  obtain ⟨casters, drafts⟩ := Prod.mk.inj same
  rw [castDraft, castDraft, casters, drafts]
  cases right.caster.cast now
      (String.ofList (Text.joinLines (right.draft ++ ["seal".toList]))) with
  | error fault => rfl
  | ok ended =>
    obtain ⟨result, caster⟩ := ended
    cases result with
    | error error => rfl
    | ok report => simp only [Fault.ok_bind, Fault.pure_eq_ok, Except.map, shared]

theorem run_shared {left right : Terminal} (same : left.shared = right.shared) (now : UInt64)
    (command : Command) :
    (left.run now command).map (fun reply => reply.2.shared) =
      (right.run now command).map fun reply => reply.2.shared := by
  obtain ⟨casters, drafts⟩ := Prod.mk.inj same
  cases command with
  | castDraft => exact castDraft_shared same now
  | _ => simp [run, shared, Except.map, casters, drafts]

theorem handle_shared {left right : Terminal} (same : left.shared = right.shared) (now : UInt64)
    (line : String) :
    (left.handle now line).map (fun reply => reply.2.shared) =
      (right.handle now line).map fun reply => reply.2.shared := by
  obtain ⟨casters, drafts⟩ := Prod.mk.inj same
  have ticked := congrArg (fun caster : Caster => (caster.tick now).map Prod.snd) casters
  refine Fault.map_bind_congr ticked ?_
  rintro ⟨count, caster⟩ ⟨other, _⟩ rfl
  have moved : ({ left with caster } : Terminal).shared =
      ({ right with caster } : Terminal).shared := congrArg (caster, ·) drafts
  exact run_shared moved now _

-- Replies may differ, but each line takes what is shared to what is shared.
theorem handleAll_shared {left right : Terminal} (same : left.shared = right.shared)
    (entries : List (UInt64 × String)) :
    (left.handleAll entries).map (fun run => run.2.shared) =
      (right.handleAll entries).map fun run => run.2.shared := by
  induction entries generalizing left right with
  | nil => exact congrArg Except.ok same
  | cons entry later ih =>
    obtain ⟨now, line⟩ := entry
    refine Fault.map_bind_congr (handle_shared same now line) ?_
    rintro ⟨reply, first⟩ ⟨other, second⟩ alike
    refine Fault.map_bind_congr (ih alike) ?_
    rintro ⟨replies, last⟩ ⟨others, ending⟩ ends
    exact congrArg Except.ok ends

theorem typing_is_casting :
    (∀ (terminal : Terminal) (entries : List (UInt64 × String)) (last : UInt64),
      terminal.draft = [] →
      terminal.caster.engine.laws.normalTimeMin ≤ terminal.caster.engine.laws.normalTimeMax →
      (∀ entry ∈ entries, Script.Drafts entry.2.toList) →
      (entries.map Prod.fst ++ [last]).Pairwise (· ≤ ·) →
      (∀ entry ∈ entries, Command.ofLine entry.2.toList ∈
        [.nothing, .bind, .clause (Text.trim entry.2.toList)]) ∧
      let script := "\n".intercalate (entries.map Prod.snd ++ ["seal"])
      ∃ count caster, terminal.caster.tick last = .ok (count, caster) ∧
        match caster.cast last script with
        | .error fault => terminal.handleAll (entries ++ [(last, "seal")]) = .error fault
        | .ok (.error error, after) => ∃ chronicle,
          terminal.handleAll (entries ++ [(last, "seal")]) = .ok
            (entries.map (fun _ => .silent) ++ [.print ("Spell error: " ++ error.message)],
              ⟨after, chronicle, terminal.caller, []⟩)
        | .ok (.ok report, after) => ∃ chronicle,
          terminal.handleAll (entries ++ [(last, "seal")]) = .ok
            (entries.map (fun _ => .silent) ++ [.print (report.verdict.message ++
                "\nCost: " ++ toString report.cost ++ "E. Energy: " ++ toString report.energy ++
                "E." ++ String.join ((terminal.undiscovered script).map fun keyword =>
                  "\nProtocol discovered: " ++ keyword.name))],
              ⟨after, chronicle, terminal.caller, []⟩)) ∧
    ∀ (terminal : Terminal) (chronicle : Chronicle) (caller : String)
      (entries : List (UInt64 × String)),
      (({ terminal with chronicle, caller } : Terminal).handleAll entries).map
          (fun run => run.2.caster) =
        (terminal.handleAll entries).map fun run => run.2.caster := by
  constructor
  · intro terminal entries last empty timeRange drafts ascending
    obtain ⟨count, caster, ticked⟩ := Caster.tick_total timeRange last
    refine ⟨fun entry member => ofLine_drafts (drafts entry member), ?_⟩
    intro script
    refine ⟨count, caster, ticked, ?_⟩
    have done := @handleAll_seal terminal entries last script empty timeRange drafts ascending rfl
      count caster ticked
    cases ended : caster.cast last script with
    | error fault => simpa only [ended] using done
    | ok ending =>
      obtain ⟨result, after⟩ := ending
      simp only [ended] at done
      cases result with
      | error error => exact done
      | ok report => exact done
  · intro terminal chronicle caller entries
    have same : ({ terminal with chronicle, caller } : Terminal).shared = terminal.shared := rfl
    have casters := congrArg (Except.map Prod.fst) (handleAll_shared same entries)
    rwa [Fault.map_map, Fault.map_map] at casters

theorem typing_is_casting_kernel :
    let terminal := Terminal.new (.new {} (.ofSeed 0)) (.new (.ofSeed 1)) "scribe"
    let entries : List (UInt64 × String) := [
      (5, "  focus: Probability"), (5, ""), (7, "anchor: Self \r"), (7, "shift: +15%"),
      (9, "cost: 30E"), (9, "intent: \"energy set 40 in Kernel.Space\"")]
    let script := "\n".intercalate (entries.map Prod.snd ++ ["seal"])
    (terminal.draft = [] ∧
      terminal.caster.engine.laws.normalTimeMin ≤ terminal.caster.engine.laws.normalTimeMax ∧
      (∀ entry ∈ entries, Script.Drafts entry.2.toList) ∧
      (entries.map Prod.fst ++ [12]).Pairwise (· ≤ ·)) ∧
    (∀ entry ∈ entries, Command.ofLine entry.2.toList ∈
      [.nothing, .bind, .clause (Text.trim entry.2.toList)]) ∧
    ∃ count caster report after chronicle, terminal.caster.tick 12 = .ok (count, caster) ∧
      caster.cast 12 script = .ok (.ok report, after) ∧
      terminal.handleAll (entries ++ [(12, "seal")]) = .ok
        ([.silent, .silent, .silent, .silent, .silent, .silent, .print
          ("Spell cast successfully! Reality shifts to your will.\nCost: 12E. Energy: 88E." ++
            "\nProtocol discovered: kernel.space")],
          ⟨after, chronicle, "scribe", []⟩) := by
  intro terminal entries script
  have timeRange : terminal.caster.engine.laws.normalTimeMin ≤
      terminal.caster.engine.laws.normalTimeMax := by decide
  have drafts : ∀ entry ∈ entries, Script.Drafts entry.2.toList := by decide
  have ascending : (entries.map Prod.fst ++ [12]).Pairwise (· ≤ ·) := by decide
  obtain ⟨commands, count, caster, ticked, typed⟩ :=
    typing_is_casting.1 terminal entries 12 rfl timeRange drafts ascending
  have facts : ((terminal.caster.tick 12 >>= fun ticked => ticked.2.cast 12 script).map fun ended =>
      ended.1.map fun report => (report.verdict.message, report.cost, report.energy)) =
      .ok (.ok ("Spell cast successfully! Reality shifts to your will.", 12, 88)) := by
    decide +kernel
  have fresh : terminal.undiscovered ("\n".intercalate (entries.map Prod.snd ++ ["seal"])) =
      [.kernelSpace] := by decide +kernel
  refine ⟨⟨rfl, timeRange, drafts, ascending⟩, commands, ?_⟩
  rw [ticked, Fault.ok_bind] at facts
  cases ended : caster.cast 12 script with
  | error fault =>
    rw [ended] at facts
    cases facts
  | ok ending =>
    obtain ⟨result, after⟩ := ending
    rw [ended] at facts
    cases result with
    | error error => cases facts
    | ok report =>
      obtain ⟨message, cost, energy⟩ : report.verdict.message =
          "Spell cast successfully! Reality shifts to your will." ∧ report.cost = 12 ∧
          report.energy = 88 := by simpa [Except.map] using facts
      have printed : "Spell cast successfully! Reality shifts to your will." ++ "\nCost: " ++
          toString (12 : UInt32) ++ "E. Energy: " ++ toString (88 : UInt32) ++ "E." ++
          String.join ([Keyword.kernelSpace].map fun keyword =>
            "\nProtocol discovered: " ++ keyword.name) =
          "Spell cast successfully! Reality shifts to your will.\nCost: 12E. Energy: 88E." ++
            "\nProtocol discovered: kernel.space" := by decide
      have cast : caster.cast 12 ("\n".intercalate (entries.map Prod.snd ++ ["seal"])) = _ := ended
      rw [cast] at typed
      obtain ⟨chronicle, replied⟩ := typed
      rw [message, cost, energy, fresh, printed] at replied
      exact ⟨count, caster, report, after, chronicle, ticked, ended, replied⟩

end Terminal

end Spellcraft
