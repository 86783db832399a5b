import Spellcraft.Proofs.CommandLine.Casting
import Spellcraft.Proofs.Digest
import Spellcraft.Proofs.Wire.Snapshot

set_option autoImplicit false

namespace Spellcraft.Snapshot

/-- How a snapshot comes out: by the first of its faults, and as a session if it has none. -/
structure Judged (snapshot : Snapshot) : Prop where
  verify : snapshot.verify = true ↔
    snapshot.digest = Digest.hexText (Digest.bytesOf snapshot.payload)
  schemaMismatch (found : UInt32) : snapshot.restore = .error (.schemaMismatch found) ↔
    snapshot.schema ≠ 2 ∧ found = snapshot.schema
  integrityMismatch (expected actual : String) :
    snapshot.restore = .error (.integrityMismatch expected actual) ↔
      snapshot.schema = 2 ∧ expected = snapshot.digest ∧
        actual = Digest.hexText (Digest.bytesOf snapshot.payload) ∧ expected ≠ actual
  unreadable : snapshot.restore = .error .unreadable ↔
    snapshot.schema = 2 ∧ snapshot.verify = true ∧
      Session.ofText? snapshot.payload = none
  restored (session : Session) : snapshot.restore = .ok session ↔
    snapshot.schema = 2 ∧ snapshot.verify = true ∧
      Session.ofText? snapshot.payload = some session

variable (snapshot : Snapshot)

theorem verify_iff : snapshot.verify = true ↔
    snapshot.digest = Digest.hexText (Digest.bytesOf snapshot.payload) := by
  rw [verify, beq_iff_eq, Digest.ofText_eq_hexText, eq_comm]

-- The guards in their order.
theorem restore_cases :
    (snapshot.schema ≠ 2 ∧
      snapshot.restore = .error (.schemaMismatch snapshot.schema)) ∨
    (snapshot.schema = 2 ∧ snapshot.verify = false ∧
      snapshot.restore = .error (.integrityMismatch snapshot.digest
        (Digest.hexText (Digest.bytesOf snapshot.payload)))) ∨
    (snapshot.schema = 2 ∧ snapshot.verify = true ∧
      Session.ofText? snapshot.payload = none ∧ snapshot.restore = .error .unreadable) ∨
    ∃ session, snapshot.schema = 2 ∧ snapshot.verify = true ∧
      Session.ofText? snapshot.payload = some session ∧ snapshot.restore = .ok session := by
  rw [restore, ← Digest.ofText_eq_hexText]
  by_cases current : snapshot.schema = 2
  · right
    cases verified : snapshot.verify with
    | false =>
      have apart : Digest.ofText snapshot.payload ≠ snapshot.digest := by
        simpa [verify] using verified
      exact .inl ⟨current, rfl, by simp [current, currentSchema, apart]⟩
    | true =>
      have same : Digest.ofText snapshot.payload = snapshot.digest := by
        simpa [verify] using verified
      right
      cases read : Session.ofText? snapshot.payload with
      | none => exact .inl ⟨current, rfl, rfl, by simp [current, currentSchema, same]⟩
      | some session =>
        exact .inr ⟨session, current, rfl, rfl, by simp [current, currentSchema, same]⟩
  · exact .inl ⟨current, by simp [current, currentSchema]⟩

theorem judged : snapshot.Judged := by
  have verified := verify_iff snapshot
  rcases restore_cases snapshot with ⟨foreign, refused⟩ | ⟨current, altered, refused⟩ |
    ⟨current, intact, read, refused⟩ | ⟨session, current, intact, read, restored⟩
  · refine ⟨verified, fun found => ?_, fun _ _ => ?_, ?_, fun _ => ?_⟩
    all_goals simp only [refused]
    · simp [foreign, eq_comm (a := snapshot.schema)]
    all_goals simp [foreign]
  · have apart : snapshot.digest ≠ Digest.hexText (Digest.bytesOf snapshot.payload) := by
      simpa [altered] using verified
    refine ⟨verified, fun found => ?_, fun expected actual => ?_, ?_, fun _ => ?_⟩
    all_goals simp only [refused]
    · simp [current]
    · constructor
      · intro same
        cases same
        exact ⟨current, rfl, rfl, apart⟩
      · rintro ⟨-, rfl, rfl, -⟩
        rfl
    all_goals simp [altered]
  · have same := verified.1 intact
    refine ⟨verified, fun found => ?_, fun _ _ => ?_, ?_, fun _ => ?_⟩
    all_goals simp only [refused]
    · simp [current]
    · simpa using fun _ expected actual => expected.trans (same.trans actual.symm)
    · simp [current, intact, read]
    · simp [read]
  · have same := verified.1 intact
    refine ⟨verified, fun found => ?_, fun _ _ => ?_, ?_, fun _ => ?_⟩
    all_goals simp only [restored]
    · simp [current]
    · simpa using fun _ expected actual => expected.trans (same.trans actual.symm)
    · simp [read]
    · simp [current, intact, read]

variable {snapshot}

-- A payload under the digest of another one, which is not its own.
theorem exchanged {payload : String} (intact : snapshot.verify = true)
    (apart : Digest.bytesOf payload ≠ Digest.bytesOf snapshot.payload) :
    { snapshot with payload }.verify = false ∧
      { snapshot with payload }.restore = if snapshot.schema = 2 then
        .error (.integrityMismatch snapshot.digest (Digest.hexText (Digest.bytesOf payload)))
      else .error (.schemaMismatch snapshot.schema) := by
  have digest := (verify_iff snapshot).1 intact
  have altered : { snapshot with payload }.verify = false := by
    rw [← Bool.not_eq_true, verify_iff, digest, Digest.hexText_inj]
    exact apart.symm
  refine ⟨altered, ?_⟩
  rcases restore_cases { snapshot with payload } with ⟨foreign, refused⟩ | ⟨current, -, refused⟩ |
    ⟨-, intact, -⟩ | ⟨_, -, intact, -⟩
  · rw [if_neg foreign, refused]
  · rw [if_pos current, refused]
  all_goals
    rw [altered] at intact
    cases intact

theorem tampering_caught :
    (∀ snapshot : Snapshot, ofFileText? snapshot.fileText = some snapshot ∧
      (∀ files path written,
        CommandLine.Files.write files path snapshot.fileText.toUTF8 = (written, true) →
          (written.readText? path).bind ofFileText? = some snapshot) ∧
      snapshot.Judged) ∧
    (∀ text, (Digest.bytesOf text).length = 32 ∧
      ∀ c ∈ (Digest.hexText (Digest.bytesOf text)).toList, c ∈ "0123456789abcdef".toList) ∧
    ∀ (snapshot : Snapshot) (payload : String), snapshot.verify = true →
      Digest.bytesOf payload ≠ Digest.bytesOf snapshot.payload →
      { snapshot with payload }.verify = false ∧
        { snapshot with payload }.restore = if snapshot.schema = 2 then
          .error (.integrityMismatch snapshot.digest (Digest.hexText (Digest.bytesOf payload)))
        else .error (.schemaMismatch snapshot.schema) := by
  refine ⟨fun snapshot => ⟨ofFileText?_fileText snapshot, fun files path written whole => ?_,
    judged snapshot⟩, fun text => ⟨Digest.Chain.length_bytes _, fun c => Digest.hexText_lower⟩,
    fun snapshot payload => exchanged⟩
  rw [CommandLine.Files.readText?_write whole]
  exact ofFileText?_fileText snapshot

-- A snapshot of no session, kept in a file in a directory that is made for it, with another payload
-- under its digest; and one of a new session, which is restored.
theorem tampering_caught_exchanged :
    let payload := "\x7b\"energy\": 73,\n\"é\": \"\\\"\x7d"
    let other := "\x7b\"energy\": 100,\n\"é\": \"\\\"\x7d"
    let snapshot : Snapshot := ⟨2, 7, Digest.ofText payload, payload⟩
    let saved := CommandLine.Files.empty.write "kept/session.json" snapshot.fileText.toUTF8
    let session : Session := ⟨{}, [⟨300, .halveProbability⟩], ⟨64, 0⟩⟩
    let sound : Snapshot := ⟨2, 9, Digest.ofText session.text, session.text⟩
    (saved.2 = true ∧ snapshot.verify = true ∧
      Digest.bytesOf other ≠ Digest.bytesOf snapshot.payload) ∧
    (saved.1.readText? "kept/session.json").bind ofFileText? = some snapshot ∧
    snapshot.restore = .error .unreadable ∧
    { snapshot with payload := other }.restore =
      .error (.integrityMismatch (Digest.ofText payload) (Digest.ofText other)) ∧
    sound.restore = .ok session ∧
    { sound with payload }.restore =
      .error (.integrityMismatch (Digest.ofText session.text) (Digest.ofText payload)) ∧
    { sound with schema := 3 }.restore = .error (.schemaMismatch 3) := by
  intro payload other snapshot saved session sound
  have intact : snapshot.verify = true := by decide +kernel
  have apart : Digest.bytesOf other ≠ Digest.bytesOf snapshot.payload := by decide +kernel
  have unread : Session.ofText? snapshot.payload = none := by decide +kernel
  have whole : saved.2 = true := by decide +kernel
  have verified : sound.verify = true := beq_self_eq_true _
  have readsBack : session.ReadsBack := by decide +kernel
  have read : Session.ofText? sound.payload = some session := Session.ofText?_text readsBack
  have foreign : Digest.bytesOf payload ≠ Digest.bytesOf sound.payload := by decide +kernel
  obtain ⟨kept, -, caught⟩ := tampering_caught
  obtain ⟨-, loaded, judged⟩ := kept snapshot
  obtain ⟨-, -, sound_judged⟩ := kept sound
  obtain ⟨-, -, later_judged⟩ := kept { sound with schema := 3 }
  refine ⟨⟨whole, intact, apart⟩, loaded .empty "kept/session.json" saved.1 (Prod.ext rfl whole),
    judged.unreadable.2 ⟨rfl, intact, unread⟩, ?_,
    (sound_judged.restored session).2 ⟨rfl, verified, read⟩, ?_,
    (later_judged.schemaMismatch 3).2 ⟨by decide, rfl⟩⟩
  · rw [(caught snapshot other intact apart).2, if_pos rfl, ← Digest.ofText_eq_hexText]
  · rw [(caught sound payload verified foreign).2, if_pos rfl, ← Digest.ofText_eq_hexText]

end Spellcraft.Snapshot
