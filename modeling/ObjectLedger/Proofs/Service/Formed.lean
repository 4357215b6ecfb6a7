import ObjectLedger.Proofs.Service.Quota
import ObjectLedger.Proofs.Service.Step

/-! # What the counters are not needed for

The counter of generations tells the record that a session found from what was written over it
since. What an operation can write at all needs no counter: a commit writes the key of its session
or writes back the record that the session found, and a deletion only drops keys
(`World.Advance`). Both are well formed, so every world that a run comes to is formed
(`World.Formed.moment`), also one in which the counter has run out.
-/

namespace ObjectLedger

/-- A session writes a well-formed key, over nothing or over a well-formed one. -/
structure Session.Formed (session : Session) : Prop extends session.Sound where
  replaces : ∀ old, session.previous = some old → old.WellFormed

/-- A store of frames, with sessions that write to it. -/
structure World.Formed (world : World) : Prop where
  records : world.service.records.Sound
  faithful : world.service.outages.Faithful
  sessions : ∀ place session, world.sessionAt place = some session → session.Formed

/-- A key that a commit of a session may write: the key of the session in its place and with its
versions, under no condition. -/
structure Session.MayWrite (session : Session) (written : KeyRecord) : Prop where
  wellFormed : written.WellFormed
  place : session.key.SamePlace written
  versions : written.history.map (·.version) = session.key.history.map (·.version)
  unconditional : written.expected = none

namespace Records

/-- A property of stores is not lost when a key is written. -/
def Admits (holds : Records → Prop) (key : KeyRecord) : Prop :=
  ∀ {records : Records} {bytes : List UInt8}, holds records → key.persist = .ok bytes →
    holds (records.putKey key bytes)

/-- A well-formed key can be written to a sound store. -/
theorem admits_sound {key : KeyRecord} (wellFormed : key.WellFormed) : Admits Sound key :=
  fun sound persisted => sound.putKey wellFormed persisted

/-- What is kept by all that a commit of a session may write. -/
structure AdmitsCommit (holds : Records → Prop) (session : Session) : Prop where
  written : ∀ written, session.MayWrite written → Admits holds written
  previous : ∀ old, session.previous = some old → Admits holds old

/-- All that a formed session may write can be written to a sound store. -/
theorem admitsCommit_sound {session : Session} (formed : session.Formed) :
    AdmitsCommit Sound session where
  written _ may := admits_sound may.wellFormed
  previous old same := admits_sound (formed.replaces old same)

end Records

namespace Action

open Service

variable {α β : Type} {holds : Records → Prop}

/-- Wherever the records have a property, an action leaves them with it, whatever its result. -/
def Keeps (holds : Records → Prop) (action : Action α) : Prop :=
  ∀ before, holds before.records → action.Ensures before
    (fun _ after => holds after.records) (fun _ after => holds after.records)

theorem Keeps.bind {first : Action α} {next : α → Action β} (keeps : first.Keeps holds)
    (follows : ∀ value, (next value).Keeps holds) : (first >>= next).Keeps holds :=
  fun before here => (keeps before here).bind fun value middle left => follows value middle left

theorem Keeps.attempt {action : Action α} (keeps : action.Keeps holds) :
    (Action.attempt action).Keeps holds :=
  fun before here => (keeps before here).attempt _ (fun _ _ left => left) (fun _ _ left => left)
    fun _ _ left => left

theorem keeps_pure (value : α) : (pure value : Action α).Keeps holds := fun _ here => here

theorem keeps_fail (cause : StoreError) : (fail cause : Action α).Keeps holds := fun _ here => here

/-- Writing a key keeps what the key is admitted to, also where the call fails. -/
theorem keeps_writeKey {key : KeyRecord} (admits : Records.Admits holds key)
    (condition : Precondition) : (writeKey key condition).Keeps holds := by
  intro before here
  apply (ensures_writeKey key condition).mono
  · rintro _ after ⟨records, changed, rfl⟩
    obtain ⟨frame, persisted, -, rfl⟩ := Records.writeKey_eq_ok_iff.1 changed
    exact admits here persisted
  · rintro fault after ⟨rfl, -⟩
    exact here

/-- Removing a key keeps every stable property. -/
theorem keeps_deleteKey (stable : Records.Stable holds) (volume bucket key : String)
    (condition : Precondition) : (deleteKey volume bucket key condition).Keeps holds := by
  intro before here
  apply (ensures_deleteKey (stable.sound here) volume bucket key condition).mono
  · rintro _ after ⟨-, -, idle⟩
    exact idle.records ▸ stable.dropKey here _
  · rintro fault after ⟨rfl, -⟩
    exact here

theorem keeps_deleteBlocks (blocks : List Block) : (deleteBlocks blocks).Keeps holds := by
  intro before here
  apply (ensures_deleteBlocks blocks).mono
  · rintro _ after rfl
    exact here
  · rintro fault after ⟨rfl, -⟩
    exact here

/-- Charging a bucket keeps every stable property, however many attempts it takes. -/
theorem keeps_chargeUsage (stable : Records.Stable holds) (settings : Settings)
    (volume bucket : String) (bytes keys : Int64) :
    (chargeUsage settings volume bucket bytes keys).Keeps holds := by
  intro before here
  have sound := (stable.sound here).toBucketsSound
  apply (ensures_chargeUsage sound settings volume bucket bytes keys).mono
  · rintro _ after ⟨records, moves, idle⟩
    exact idle.records ▸ stable.moves here moves
  · rintro fault after ⟨ended, -⟩
    exact (Ended.halted ended).records ▸ here

/-- Undoing a write keeps what the old record is admitted to. -/
theorem keeps_rollBack (stable : Records.Stable holds) (key : KeyRecord)
    {previous : Option KeyRecord} (admits : ∀ old, previous = some old → Records.Admits holds old) :
    (rollBack key previous).Keeps holds := by
  cases previous with
  | some old => exact keeps_writeKey (admits old rfl) _
  | none => exact (keeps_deleteKey stable _ _ _ _).bind fun _ => keeps_pure ()

/-- Writing the key of a commit keeps what the key is admitted to under every generation. -/
theorem keeps_writeCommitted (stable : Records.Stable holds) (settings : Settings)
    {key : KeyRecord}
    (admits : ∀ generation, Records.Admits holds { key with generation, expected := none })
    (bytes keys : Int64) : (writeCommitted settings key bytes keys).Keeps holds := by
  intro before here
  have sound := (stable.sound here).toBucketsSound
  apply (ensures_writeCommitted sound settings key bytes keys).mono
  · rintro written after ⟨⟨frame, writes⟩, -⟩
    rw [writes.idle.records]
    exact (writes.fields ▸ admits written.generation : Records.Admits holds written) here
      writes.persisted
  · rintro fault after (ended | ended)
    · exact (Ended.halted ended).records ▸ here
    · exact (Ended.halted ended).records ▸ here

/-- Charging a commit, or undoing it, keeps what its session may write. -/
theorem keeps_chargeCommit (stable : Records.Stable holds) (settings : Settings)
    {session : Session} (admits : Records.AdmitsCommit holds session) (outcome : Reconciliation)
    (leftOver : List Block) (bytes : Int64) (key : KeyRecord) :
    (chargeCommit settings session outcome leftOver bytes key).Keeps holds := by
  have failing : ∀ (blocks : List Block) (cause : StoreError), (do
      deleteBlocks blocks
      fail cause : Action Commit).Keeps holds :=
    fun blocks cause => (keeps_deleteBlocks blocks).bind fun _ => keeps_fail cause
  refine (keeps_chargeUsage stable _ _ _ _ _).attempt.bind fun result => ?_
  cases result with
  | error cause =>
      refine (keeps_rollBack stable key admits.previous).attempt.bind fun undone => ?_
      cases undone with
      | ok _ => exact failing _ cause
      | error refusal => exact failing _ cause
  | ok _ => exact (keeps_deleteBlocks _).bind fun _ => keeps_pure _

/-- A commit that has its blocks together keeps what its session may write. -/
theorem keeps_storeCommit (stable : Records.Stable holds) (settings : Settings)
    {session : Session} (admits : Records.AdmitsCommit holds session) (outcome : Reconciliation)
    (leftOver : List Block) (bytes : Int64) {key : KeyRecord}
    (writes : ∀ generation, session.MayWrite { key with generation, expected := none }) :
    (storeCommit settings session outcome leftOver bytes key).Keeps holds := by
  refine (keeps_writeCommitted stable settings
    (fun generation => admits.written _ (writes generation)) _ _).attempt.bind fun result => ?_
  cases result with
  | error cause => exact (keeps_deleteBlocks _).bind fun _ => keeps_fail cause
  | ok written => exact keeps_chargeCommit stable settings admits _ _ _ _

/-- A commit keeps what is kept by all that it may write, wherever it stops. -/
theorem keeps_commitKey (stable : Records.Stable holds) (settings : Settings) {session : Session}
    (formed : session.Formed) (admits : Records.AdmitsCommit holds session)
    (reported : List Block) (size : UInt64) (options : CommitOptions) :
    (commitKey settings session reported size options).Keeps holds := by
  intro before here
  apply ensures_prepared formed.toSound
  · exact fun _ => here
  · exact fun _ _ _ => here
  · intro _ _ key outcome bytes prepares _
    apply keeps_storeCommit stable settings admits
    · intro generation
      exact ⟨{ prepares.commits.wellFormed with },
        prepares.commits.place.trans ⟨rfl, rfl, rfl⟩, prepares.versions, rfl⟩
    · exact here

end Action

namespace World

variable {settings : Settings} {world before next : World} {operations : List Operation}

/-- A session that is opened on a sound store is formed. -/
theorem formed_of_opened (sound : world.service.records.Sound) {request : OpenRequest}
    {session : Session} (stands : Action.Opened world.service request session) :
    session.Formed where
  toSound := stands.sound
  replaces old previous := by
    obtain ⟨stored, -, holds⟩ := sound.stored_of_keyAt (stands.previous.symm.trans previous)
    exact holds.wellFormed

/-- What an operation does to a formed world, also where the counter has run out. -/
inductive Advance (before : World) : World → Prop
  | created {bucket : BucketRecord} {frame : List UInt8} {service : Service}
      (wellFormed : bucket.WellFormed) (persisted : bucket.persist = .ok frame)
      (free : before.service.records.buckets.get? (bucketPath bucket.volume bucket.name) = none)
      (records : service.records = before.service.records.putBucket bucket frame) :
      Advance before { before with service }
  | opened {request : OpenRequest} {session : Session} {service : Service}
      (stands : Action.Opened before.service request session)
      (numbered : Numbered session.older → Numbered session.key.history)
      (records : service.records = before.service.records) :
      Advance before ⟨service, before.sessions ++ [some session]⟩
  | allocated {place : Nat} {old session : Session} {service : Service}
      (found : before.sessionAt place = some old) (continues : Continues session old)
      (versions : session.key.history.map (·.version) = old.key.history.map (·.version))
      (records : service.records = before.service.records) :
      Advance before ⟨service, before.sessions.set place (some session)⟩
  | committed {place : Nat} {session : Session} {service : Service}
      (found : before.sessionAt place = some session)
      (keeps : ∀ holds, Records.Stable holds → Records.AdmitsCommit holds session →
        holds before.service.records → holds service.records) :
      Advance before ⟨service, before.sessions.set place none⟩
  | deleted {service : Service}
      (keeps : ∀ holds, Records.Stable holds → holds before.service.records →
        holds service.records) :
      Advance before { before with service }
  | refused {service : Service} (records : service.records = before.service.records) :
      Advance before { before with service }

/-- Every operation on a formed world is an advance. -/
theorem Formed.advance (formed : world.Formed) (settings : Settings) (operation : Operation) :
    Advance world (world.after settings operation) := by
  have sound := formed.records
  unfold World.after
  cases operation with
  | createBucket draft =>
      have ensured := Action.ensures_createBucket world.service draft
      rw [perform]
      rcases ran : (Action.createBucket draft).exec world.service with ⟨fault | bucket, service⟩
      · exact .refused (ensured.of_exec_error ran).records
      · obtain ⟨wellFormed, -, -, frame, persisted, free, leaves⟩ := ensured.of_exec_ok ran
        exact .created wellFormed persisted free leaves.records
  | openKey request =>
      have ensured := (Action.ensures_openKey sound formed.faithful settings request).and
        (Action.numbered_openKey settings request world.service)
      rw [perform]
      rcases ran : (Action.openKey settings request).exec world.service with
        ⟨fault | session, service⟩
      · obtain ⟨⟨allocator, -, leaves, -⟩, -⟩ := ensured.of_exec_error ran
        exact .refused leaves.records
      · obtain ⟨⟨stands, blocks, allocator, -, -, leaves⟩, numbered⟩ := ensured.of_exec_ok ran
        obtain ⟨group, history⟩ := stands.sound.history
        exact .opened stands (numbered _ group history) leaves.records
  | allocateBlock place =>
      rw [perform]
      cases opened : world.sessionAt place with
      | none => exact .refused rfl
      | some session =>
          have ensured := (Action.ensures_allocateBlock formed.faithful settings
            (formed.sessions place session opened).toSound).and
              (Action.versions_allocateBlock settings session world.service)
          dsimp only
          rcases ran : (Action.allocateBlock settings session).exec world.service with
            ⟨fault | ⟨block, next⟩, service⟩
          · obtain ⟨⟨allocator, -, leaves, -⟩, -⟩ := ensured.of_exec_error ran
            exact .refused leaves.records
          · obtain ⟨⟨prepared, place, previous, versioning, allocator, -, -, leaves⟩, versions⟩ :=
              ensured.of_exec_ok ran
            exact .allocated opened ⟨fun _ => prepared, place, previous, versioning⟩ versions
              leaves.records
  | commitKey place reported size options =>
      rw [perform]
      cases opened : world.sessionAt place with
      | none => exact .refused rfl
      | some session =>
          have ensured := fun (holds : Records → Prop) (stable : Records.Stable holds)
              (admits : Records.AdmitsCommit holds session) =>
            Action.keeps_commitKey stable settings (formed.sessions place session opened) admits
              reported size options world.service
          dsimp only
          rcases ran : (Action.commitKey settings session reported size options).exec
            world.service with ⟨fault | commit, service⟩
          · exact .committed opened fun holds stable admits here =>
              (ensured holds stable admits here).of_exec_error ran
          · exact .committed opened fun holds stable admits here =>
              (ensured holds stable admits here).of_exec_ok ran
  | deleteKey volume bucket key =>
      obtain ⟨result, service, ran, effect⟩ := perform_deleteKey sound settings volume bucket key
      rw [ran]
      exact .deleted fun holds stable => effect.keeps stable

/-- A session that is open after an operation was opened by it, or goes on from before with its
versions. -/
theorem Advance.sessionAt (advance : Advance before next) {place : Nat} {session : Session}
    (found : next.sessionAt place = some session) :
    (∃ request, Action.Opened before.service request session ∧
      (Numbered session.older → Numbered session.key.history)) ∨
      ∃ old, before.sessionAt place = some old ∧ Continues session old ∧
        session.key.history.map (·.version) = old.key.history.map (·.version) := by
  have same : before.sessionAt place = some session →
      ∃ old, before.sessionAt place = some old ∧ Continues session old ∧
        session.key.history.map (·.version) = old.key.history.map (·.version) :=
    fun there => ⟨session, there, ⟨id, ⟨rfl, rfl, rfl⟩, rfl, rfl⟩, rfl⟩
  cases advance with
  | created => exact .inr (same found)
  | deleted => exact .inr (same found)
  | refused => exact .inr (same found)
  | opened stands numbered =>
      rw [sessionAt_append] at found
      split at found
      · cases found
        exact .inl ⟨_, stands, numbered⟩
      · exact .inr (same found)
  | allocated opened continues versions =>
      rw [sessionAt_set opened] at found
      split at found
      · rename_i here
        cases found
        exact .inr ⟨_, here ▸ opened, continues, versions⟩
      · exact .inr (same found)
  | committed opened =>
      rw [sessionAt_set opened] at found
      split at found
      · cases found
      · exact .inr (same found)

/-- Every operation keeps the store of a formed world sound. -/
theorem Advance.records (advance : Advance before next) (formed : before.Formed) :
    next.service.records.Sound := by
  have sound := formed.records
  cases advance with
  | created wellFormed persisted _ records => exact records ▸ sound.putBucket wellFormed persisted
  | opened _ _ records => exact records ▸ sound
  | allocated _ _ _ records => exact records ▸ sound
  | refused records => exact records ▸ sound
  | committed found keeps =>
      exact keeps _ Records.stable_sound
        (Records.admitsCommit_sound (formed.sessions _ _ found)) sound
  | deleted keeps => exact keeps _ Records.stable_sound sound

/-- Every operation keeps a world formed, whatever is refused. -/
theorem Formed.after (formed : world.Formed) (settings : Settings) (operation : Operation) :
    (world.after settings operation).Formed := by
  have advance := formed.advance settings operation
  have schedule := (changes_perform formed.records.toBucketsSound settings operation).schedule
  refine ⟨advance.records formed, fun call => ?_, fun place session found => ?_⟩
  · rw [schedule]
    exact formed.faithful call
  · rcases advance.sessionAt found with ⟨request, stands, -⟩ | ⟨old, there, continues, -⟩
    · exact formed_of_opened formed.records stands
    · have prepared := formed.sessions place old there
      exact ⟨continues.sound prepared.toSound,
        fun other same => prepared.replaces other (continues.previous ▸ same)⟩

theorem formed_start (allocator : Allocator) (clock : Clock) {outages : Outages}
    (faithful : outages.Faithful) : (start allocator clock outages).Formed where
  records := Records.sound_empty
  faithful := faithful
  sessions place session found := by cases found

/-- Every moment of a run of a formed world is formed. -/
theorem Formed.moment (formed : world.Formed) (count : Nat) :
    (world.moment settings operations count).Formed := by
  refine moment_induction Formed (Nat.zero_le count) formed fun count operation _ next here => ?_
  rw [moment_succ_of_getElem? next]
  exact here.after settings operation

end World

end ObjectLedger
