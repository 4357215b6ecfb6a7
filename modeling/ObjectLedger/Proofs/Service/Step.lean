import ObjectLedger.Proofs.Service.Commit
import ObjectLedger.Proofs.Service.Deletion
import ObjectLedger.Proofs.Service.Run

/-! # One operation of a run

A world is sound if its store is, every generation stored is below the counter, and every open
session still has to do with the record it was opened on (`World.Sound`). Each operation takes a
sound world along one of a few steps (`World.Step`), and a step keeps the world sound as long as
the counter of generations does not run out (`World.Step.sound`). The invariants of whole runs
follow step by step (`World.Sound.moment`).
-/

namespace ObjectLedger

/-- What a commit answers. -/
def Outcome.ofCommit : Except Fault Commit → Outcome
  | .ok commit => .keyCommitted commit
  | .error fault => .failed fault

/-- The commit that was carried out, if one was. -/
def Outcome.commit? : Outcome → Option Commit
  | .keyCommitted commit => some commit
  | _ => none

/-- The commit of an outcome is that of a committed key. -/
theorem Outcome.commit?_eq_some_iff {outcome : Outcome} {commit : Commit} :
    outcome.commit? = some commit ↔ outcome = .keyCommitted commit := by
  cases outcome <;> simp [commit?]

/-- What a deletion answers. -/
def Outcome.ofDeletion : Except Fault KeyRecord → Outcome
  | .ok record => .keyDeleted record
  | .error fault => .failed fault

namespace World

/-- A store of frames below the counter of generations, with sessions that it hosts. -/
structure Sound (world : World) : Prop where
  records : world.service.records.Sound
  faithful : world.service.outages.Faithful
  below : ∀ path stored, world.service.records.keys.get? path = some stored →
    stored.generation < world.service.nextGeneration
  sessions : ∀ place session, world.sessionAt place = some session →
    session.Sound ∧ world.service.Hosts session

/-- What an operation does to a sound world. -/
inductive Step (settings : Settings) (before : World) : Operation → Outcome → World → Prop
  | created {draft : BucketDraft} {bucket : BucketRecord} {frame : List UInt8}
      {service : Service}
      (wellFormed : bucket.WellFormed)
      (volume : draft.volume = some bucket.volume)
      (name : draft.name = some bucket.name)
      (persisted : bucket.persist = .ok frame)
      (free : before.service.records.buckets.get? (bucketPath bucket.volume bucket.name) = none)
      (leaves : before.service.Leaves service (before.service.records.putBucket bucket frame)
        before.service.allocator) :
      Step settings before (.createBucket draft) (.bucketCreated bucket) { before with service }
  | opened {request : OpenRequest} {session : Session} {service : Service} {count : Nat}
      {blocks : List Block} {allocator : Allocator}
      (stands : Action.Opened before.service request session)
      (few : count < UInt64.size)
      (given : before.service.allocator.allocate session.key.replication count
        settings.blockSize = (.ok blocks, allocator))
      (ids : session.allocated.map (·.id) = blocks.map (·.id))
      (leaves : before.service.Leaves service before.service.records allocator) :
      Step settings before (.openKey request) (.keyOpened session)
        ⟨service, before.sessions ++ [some session]⟩
  | allocated {place : Nat} {old session : Session} {service : Service} {block : Block}
      {allocator : Allocator}
      (found : before.sessionAt place = some old)
      (sound : session.Sound)
      (same : session.key.SamePlace old.key)
      (previous : session.previous = old.previous)
      (versioning : session.versioning = old.versioning)
      (given : before.service.allocator.allocate old.key.replication 1 settings.blockSize =
        (.ok [block], allocator))
      (ids : session.allocated.map (·.id) = old.allocated.map (·.id) ++ [block.id])
      (leaves : before.service.Leaves service before.service.records allocator) :
      Step settings before (.allocateBlock place) (.blockAllocated block)
        ⟨service, before.sessions.set place (some session)⟩
  | committed {place : Nat} {reported : List Block} {size : UInt64} {options : CommitOptions}
      {session : Session} {result : Except Fault Commit} {service : Service}
      (found : before.sessionAt place = some session)
      (effect : Action.CommitEffect settings before.service session reported options result
        service) :
      Step settings before (.commitKey place reported size options) (.ofCommit result)
        ⟨service, before.sessions.set place none⟩
  | deleted {volume bucket key : String} {result : Except Fault KeyRecord} {service : Service}
      (effect : Action.DeleteEffect before.service volume bucket key result service) :
      Step settings before (.deleteKey volume bucket key) (.ofDeletion result)
        { before with service }
  /-- An operation that does not get as far as changing a record or a session. -/
  | refused {operation : Operation} {fault : Fault} {service : Service} {count : Nat}
      {allocator : Allocator}
      (early : ∀ place reported size options,
        operation ≠ .commitKey place reported size options)
      (few : count < UInt64.size)
      (advances : before.service.allocator.Advances allocator count)
      (leaves : before.service.Leaves service before.service.records allocator)
      (live : ∀ cause, fault = .error cause →
        allocator.live = before.service.allocator.live) :
      Step settings before operation (.failed fault) { before with service }
  | absent {operation : Operation} : Step settings before operation .notOpen before

variable {settings : Settings} {before after : World} {operation : Operation} {outcome : Outcome}

/-- A commit of an open session ends it, and what is ensured of the commit holds of its answer. -/
theorem perform_commitKey {place : Nat} {session : Session}
    (found : before.sessionAt place = some session) {reported : List Block} {size : UInt64}
    {options : CommitOptions} {holds : Except Fault Commit → Service → Prop}
    (ensured : (Action.commitKey settings session reported size options).Ensures before.service
      (fun commit after => holds (.ok commit) after)
      fun fault after => holds (.error fault) after) :
    ∃ result service,
      before.perform settings (.commitKey place reported size options) =
          (.ofCommit result, ⟨service, before.sessions.set place none⟩) ∧
        holds result service := by
  simp only [perform, found]
  rcases ran : (Action.commitKey settings session reported size options).exec before.service with
    ⟨fault | commit, service⟩
  · exact ⟨.error fault, service, rfl, ensured.of_exec_error ran⟩
  · exact ⟨.ok commit, service, rfl, ensured.of_exec_ok ran⟩

/-- A commit of an open session comes as far as one of its effects says, and ends the session. -/
theorem Sound.perform_commitKey (sound : before.Sound) (settings : Settings) {place : Nat}
    {session : Session} (found : before.sessionAt place = some session) (reported : List Block)
    (size : UInt64) (options : CommitOptions) : ∃ result service,
    before.perform settings (.commitKey place reported size options) =
        (.ofCommit result, ⟨service, before.sessions.set place none⟩) ∧
      Action.CommitEffect settings before.service session reported options result service := by
  obtain ⟨prepared, hosts⟩ := sound.sessions place session found
  exact World.perform_commitKey found (Action.ensures_commitKey sound.records settings prepared
    hosts reported size options)

/-- A deletion comes as far as one of its effects says. -/
theorem perform_deleteKey (sound : before.service.records.Sound) (settings : Settings)
    (volume bucket name : String) : ∃ result service,
    before.perform settings (.deleteKey volume bucket name) =
        (.ofDeletion result, { before with service }) ∧
      Action.DeleteEffect before.service volume bucket name result service := by
  have ensured := Action.ensures_deleteKeyOf sound settings volume bucket name
  rw [perform]
  rcases ran : (Action.deleteKeyOf settings volume bucket name).exec before.service with
    ⟨fault | record, service⟩
  · exact ⟨.error fault, service, rfl, ensured.of_exec_error ran⟩
  · exact ⟨.ok record, service, rfl, ensured.of_exec_ok ran⟩

/-- Every operation on a sound world is one of the steps. -/
theorem Sound.step (sound : before.Sound) (settings : Settings) (operation : Operation) :
    Step settings before operation (before.perform settings operation).1
      (before.after settings operation) := by
  unfold after
  cases operation with
  | createBucket draft =>
      have ensured := Action.ensures_createBucket before.service draft
      rw [perform]
      rcases ran : (Action.createBucket draft).exec before.service with ⟨fault | bucket, service⟩
      · exact .refused nofun (by decide) (.refl _ 0) (ensured.of_exec_error ran) fun _ _ => rfl
      · obtain ⟨wellFormed, volume, name, frame, persisted, free, leaves⟩ := ensured.of_exec_ok ran
        exact .created wellFormed volume name persisted free leaves
  | openKey request =>
      have ensured := Action.ensures_openKey sound.records sound.faithful settings request
      rw [perform]
      have few := Action.openingBlocks_lt settings request.sizeHint
      rcases ran : (Action.openKey settings request).exec before.service with
        ⟨fault | session, service⟩
      · obtain ⟨allocator, advances, leaves, live⟩ := ensured.of_exec_error ran
        exact .refused nofun few advances leaves live
      · obtain ⟨stands, blocks, allocator, given, ids, leaves⟩ := ensured.of_exec_ok ran
        exact .opened stands few given ids leaves
  | allocateBlock place =>
      rw [perform]
      cases found : before.sessionAt place with
      | none => exact .absent
      | some session =>
          have ensured := Action.ensures_allocateBlock sound.faithful settings
            (sound.sessions place session found).1
          dsimp only
          rcases ran : (Action.allocateBlock settings session).exec before.service with
            ⟨fault | ⟨block, next⟩, service⟩
          · obtain ⟨allocator, advances, leaves, live⟩ := ensured.of_exec_error ran
            exact .refused nofun (by decide) advances leaves fun _ _ => live
          · obtain ⟨sound, same, previous, versioning, allocator, given, ids, leaves⟩ :=
              ensured.of_exec_ok ran
            exact .allocated found sound same previous versioning given ids leaves
  | commitKey place reported size options =>
      cases found : before.sessionAt place with
      | none =>
          rw [perform, found]
          exact .absent
      | some session =>
          obtain ⟨result, service, ran, effect⟩ :=
            sound.perform_commitKey settings found reported size options
          rw [ran]
          exact .committed found effect
  | deleteKey volume bucket key =>
      obtain ⟨result, service, ran, effect⟩ :=
        perform_deleteKey sound.records settings volume bucket key
      rw [ran]
      exact .deleted effect

/-! ## What stands under a path -/

/-- What stands under a path of keys turns into by an operation: it stays, a deletion removes
it, or it is written anew at a generation that was never given out. -/
inductive Turn (before after : World) (operation : Operation) (path : String) : Prop
  | kept (same : after.service.records.keys.get? path = before.service.records.keys.get? path)
  | removed (deletes : ∃ volume bucket key, operation = .deleteKey volume bucket key)
      (gone : after.service.records.keys.get? path = none)
  | written (stored : Stored) (found : after.service.records.keys.get? path = some stored)
      (fresh : before.service.nextGeneration ≤ stored.generation)
      (below : stored.generation < after.service.nextGeneration)

/-- The keys of the store that an operation leaves. -/
theorem Step.turn (step : Step settings before operation outcome after)
    (counting : after.Counting) (path : String) : Turn before after operation path := by
  have moved : ∀ {records moved : Records} {volume name : String} {bytes keys : Int64},
      records.Moves volume name bytes keys moved → moved.keys.get? path = records.keys.get? path :=
    fun moves => by rw [moves.keys_eq]
  have wrote : ∀ {session : Session} {written : KeyRecord} {frame : List UInt8}
      {options : CommitOptions} {reported committed leftOver : List Block} {service : Service},
      session.Commits reported options written committed leftOver →
      Action.KeyWritten before.service service session written frame →
      service.nextGeneration ≠ 0 →
      service.records.keys.get? path =
        (before.service.records.putKey written frame).keys.get? path →
      ∀ sessions, Turn before ⟨service, sessions⟩ operation path := by
    intro session written frame options reported committed leftOver service commits writes left
      same sessions
    unfold Records.putKey at same
    rw [Dictionary.get?_insert] at same
    split at same
    · exact .written _ same writes.fresh (writes.below.resolve_left left)
    · exact .kept same
  have dropped : ∀ {home : BucketRecord} {name : String} {service : Service},
      (∃ volume bucket key, operation = .deleteKey volume bucket key) →
      service.records.keys.get? path = (before.service.records.dropKey
        (keyPath home.volume home.name name)).keys.get? path →
      ∀ sessions, Turn before ⟨service, sessions⟩ operation path := by
    intro home name service deletes same sessions
    unfold Records.dropKey at same
    rw [Dictionary.get?_erase] at same
    split at same
    · exact .removed deletes same
    · exact .kept same
  cases step with
  | created _ _ _ _ _ leaves => exact .kept (by rw [leaves.records]; rfl)
  | opened _ _ _ _ leaves => exact .kept (by rw [leaves.records])
  | allocated _ _ _ _ _ _ _ leaves => exact .kept (by rw [leaves.records])
  | refused _ _ _ leaves => exact .kept (by rw [leaves.records])
  | absent => exact .kept rfl
  | committed found effect =>
      cases effect with
      | untouched reason leaves => exact .kept (by rw [leaves.records])
      | rejected commits leaves => exact .kept (by rw [leaves.records])
      | kept commits writes reason released leaves =>
          exact wrote commits writes counting (by rw [leaves.records]) _
      | settled commits writes charged moves released leaves =>
          exact wrote commits writes counting (by rw [leaves.records, moved moves]) _
  | deleted effect =>
      cases effect with
      | untouched leaves => exact .kept (by rw [leaves.records])
      | dropped stands seen reason leaves =>
          exact dropped ⟨_, _, _, rfl⟩ (by rw [leaves.records]) _
      | settled stands seen charge moves released leaves =>
          exact dropped ⟨_, _, _, rfl⟩ (by rw [leaves.records, moved moves]) _

/-! ## Steps keep a world sound -/

/-- What every operation leaves alone. -/
theorem Step.leaves (step : Step settings before operation outcome after) :
    after.service.outages.schedule = before.service.outages.schedule ∧
      (after.service.nextGeneration = 0 ∨
        before.service.nextGeneration ≤ after.service.nextGeneration) := by
  cases step with
  | created _ _ _ _ _ leaves => exact ⟨leaves.schedule, leaves.generation⟩
  | opened _ _ _ _ leaves => exact ⟨leaves.schedule, leaves.generation⟩
  | allocated _ _ _ _ _ _ _ leaves => exact ⟨leaves.schedule, leaves.generation⟩
  | refused _ _ _ leaves => exact ⟨leaves.schedule, leaves.generation⟩
  | absent => exact ⟨rfl, .inr (UInt64.le_refl _)⟩
  | committed _ effect =>
      cases effect with
      | untouched _ leaves => exact ⟨leaves.schedule, leaves.generation⟩
      | rejected _ leaves => exact ⟨leaves.schedule, leaves.generation⟩
      | kept _ _ _ _ leaves => exact ⟨leaves.schedule, leaves.generation⟩
      | settled _ _ _ _ _ leaves => exact ⟨leaves.schedule, leaves.generation⟩
  | deleted effect =>
      cases effect with
      | untouched leaves => exact ⟨leaves.schedule, leaves.generation⟩
      | dropped _ _ _ leaves => exact ⟨leaves.schedule, leaves.generation⟩
      | settled _ _ _ _ _ leaves => exact ⟨leaves.schedule, leaves.generation⟩

/-- The counter of generations does not fall as long as it does not run out. -/
theorem Step.generation (step : Step settings before operation outcome after)
    (counting : after.Counting) :
    before.service.nextGeneration ≤ after.service.nextGeneration :=
  step.leaves.2.resolve_left counting

/-- Every operation of a sound world keeps its store sound. -/
theorem Step.records (step : Step settings before operation outcome after)
    (sound : before.service.records.Sound) : after.service.records.Sound := by
  cases step with
  | created wellFormed _ _ persisted _ leaves =>
      exact leaves.records ▸ sound.putBucket wellFormed persisted
  | opened _ _ _ _ leaves => exact leaves.records ▸ sound
  | allocated _ _ _ _ _ _ _ leaves => exact leaves.records ▸ sound
  | refused _ _ _ leaves => exact leaves.records ▸ sound
  | absent => exact sound
  | committed _ effect =>
      cases effect with
      | untouched _ leaves => exact leaves.records ▸ sound
      | rejected _ leaves => exact leaves.records ▸ sound
      | kept commits writes _ _ leaves =>
          exact leaves.records ▸ sound.putKey commits.wellFormed writes.persisted
      | settled commits writes _ moves _ leaves =>
          exact leaves.records ▸ moves.sound (sound.putKey commits.wellFormed writes.persisted)
  | deleted effect => exact effect.sound sound

/-- A session is hosted on: what is written since has another generation than its record. -/
theorem Turn.hosts {session : Session} (turn : Turn before after operation session.path)
    (hosts : before.service.Hosts session)
    (counted : before.service.nextGeneration ≤ after.service.nextGeneration) :
    after.service.Hosts session where
  earlier old previous := UInt64.lt_of_lt_of_le (hosts.earlier old previous) counted
  same old previous stored found generation := by
    cases turn with
    | kept same => exact hosts.same old previous stored (same ▸ found) generation
    | removed _ gone => cases gone.symm.trans found
    | written other there fresh _ =>
        cases there.symm.trans found
        have earlier := hosts.earlier old previous
        rw [← generation] at earlier
        exact (UInt64.lt_irrefl _ (UInt64.lt_of_lt_of_le earlier fresh)).elim

/-- A session of the same path that found the same record is hosted as well. -/
theorem Hosts.of_same {service : Service} {session other : Session}
    (hosts : service.Hosts session) (previous : other.previous = session.previous)
    (path : other.path = session.path) : service.Hosts other where
  earlier old same := hosts.earlier old (previous ▸ same)
  same old same := by
    rw [path]
    exact hosts.same old (previous ▸ same)

/-- A session is hosted where it was opened. -/
theorem Sound.hosts_opened (sound : before.Sound) {request : OpenRequest} {session : Session}
    (stands : Action.Opened before.service request session) : before.service.Hosts session := by
  have found : ∀ old, session.previous = some old → ∃ stored,
      before.service.records.keys.get? session.path = some stored ∧
        stored.HoldsKey session.path old :=
    fun old previous => sound.records.stored_of_keyAt (stands.previous.symm.trans previous)
  constructor
  · intro old previous
    obtain ⟨stored, there, holds⟩ := found old previous
    exact holds.generation ▸ sound.below _ stored there
  · intro old previous stored there _
    obtain ⟨other, same, holds⟩ := found old previous
    cases same.symm.trans there
    exact holds

/-! ## Sessions and their places -/

/-- A new session stands behind the others. -/
theorem sessionAt_append (sessions : List (Option Session)) (service : Service)
    (session : Session) (place : Nat) :
    sessionAt ⟨service, sessions ++ [some session]⟩ place =
      if place = sessions.length then some session else sessionAt ⟨service, sessions⟩ place := by
  unfold sessionAt
  rw [List.getElem?_append]
  by_cases inside : place < sessions.length
  · rw [if_pos inside, if_neg (Nat.ne_of_lt inside)]
  · rw [if_neg inside]
    by_cases last : place = sessions.length
    · rw [if_pos last, last, Nat.sub_self]
      rfl
    · have beyond : sessions.length < place := by omega
      rw [if_neg last, List.getElem?_eq_none (by simpa using by omega),
        List.getElem?_eq_none (Nat.not_lt.1 inside)]

/-- A session is open at a place that was given out. -/
theorem lt_of_sessionAt {place : Nat} {session : Session}
    (found : before.sessionAt place = some session) : place < before.sessions.length := by
  unfold sessionAt at found
  rcases Nat.lt_or_ge place before.sessions.length with inside | outside
  · exact inside
  · rw [List.getElem?_eq_none outside] at found
    cases found

/-- Only the session at the place changes. -/
theorem sessionAt_set {place : Nat} {session : Session}
    (found : before.sessionAt place = some session) (service : Service)
    (next : Option Session) (other : Nat) :
    sessionAt ⟨service, before.sessions.set place next⟩ other =
      if other = place then next else before.sessionAt other := by
  unfold sessionAt
  rw [List.getElem?_set]
  by_cases same : other = place
  · rw [if_pos same.symm, if_pos (lt_of_sessionAt found), if_pos same]
    rfl
  · rw [if_neg (Ne.symm same), if_neg same]

/-- A session goes on with the record and the place of another. -/
structure Continues (session old : Session) : Prop where
  sound : old.Sound → session.Sound
  place : session.key.SamePlace old.key
  previous : session.previous = old.previous
  versioning : session.versioning = old.versioning

/-- A session that is open after an operation was opened by it, or goes on from before. -/
theorem Step.sessionAt (step : Step settings before operation outcome after) {place : Nat}
    {session : Session} (found : after.sessionAt place = some session) :
    (place = before.sessions.length ∧ ∃ request, Action.Opened before.service request session) ∨
      ∃ old, before.sessionAt place = some old ∧ Continues session old := by
  have same : before.sessionAt place = some session →
      ∃ old, before.sessionAt place = some old ∧ Continues session old :=
    fun there => ⟨session, there, id, ⟨rfl, rfl, rfl⟩, rfl, rfl⟩
  cases step with
  | created => exact .inr (same found)
  | refused => exact .inr (same found)
  | deleted => exact .inr (same found)
  | absent => exact .inr (same found)
  | opened stands =>
      rw [sessionAt_append] at found
      split at found
      · rename_i here
        cases found
        exact .inl ⟨here, _, stands⟩
      · exact .inr (same found)
  | allocated opened sound place previous versioning =>
      rw [sessionAt_set opened] at found
      split at found
      · rename_i here
        cases found
        exact .inr ⟨_, here ▸ opened, fun _ => sound, place, previous, versioning⟩
      · exact .inr (same found)
  | committed opened =>
      rw [sessionAt_set opened] at found
      split at found
      · cases found
      · exact .inr (same found)

/-- Places stay, and the session of a place goes on with the record it found. -/
theorem Step.session (step : Step settings before operation outcome after) :
    before.sessions.length ≤ after.sessions.length ∧
      ∀ place session, place < before.sessions.length →
        after.sessionAt place = some session → ∃ old, before.sessionAt place = some old ∧
          session.path = old.path ∧ session.previous = old.previous := by
  constructor
  · cases step with
    | created => exact Nat.le_refl _
    | refused => exact Nat.le_refl _
    | deleted => exact Nat.le_refl _
    | absent => exact Nat.le_refl _
    | opened => simp
    | allocated => simp
    | committed => simp
  · intro place session inside found
    rcases step.sessionAt found with ⟨last, -⟩ | ⟨old, there, continues⟩
    · exact (Nat.ne_of_lt inside last).elim
    · exact ⟨old, there, continues.place.path, continues.previous⟩

/-- An opened session takes the place after those opened before. -/
theorem Step.of_opened {request : OpenRequest} {session : Session}
    (step : Step settings before (.openKey request) (.keyOpened session) after) :
    Action.Opened before.service request session ∧
      before.sessions.length < after.sessions.length ∧
      after.sessionAt before.sessions.length = some session := by
  cases step with
  | opened stands =>
      refine ⟨stands, by simp, ?_⟩
      rw [sessionAt_append, if_pos rfl]

/-- A commit that succeeds found its condition met, and its key stands at a fresh generation. -/
theorem Step.of_keyCommitted {place : Nat} {reported : List Block} {size : UInt64}
    {options : CommitOptions} {commit : Commit}
    (step : Step settings before (.commitKey place reported size options) outcome after)
    (counting : after.Counting) (succeeds : outcome = .keyCommitted commit) :
    ∃ session stored, before.sessionAt place = some session ∧
      (Action.conditionOf session.key).Holds
        (before.service.records.keys.get? session.path) ∧
      after.service.records.keys.get? session.path = some stored ∧
      before.service.nextGeneration ≤ stored.generation := by
  cases step with
  | refused => cases succeeds
  | absent => cases succeeds
  | @committed _ _ _ _ session result service found effect =>
      cases effect with
      | untouched => cases succeeds
      | rejected => cases succeeds
      | kept => cases succeeds
      | @settled _ _ written _ _ frame _ _ _ commits writes _ moves _ leaves =>
          refine ⟨session, ⟨written.generation, frame⟩, found, writes.holds, ?_, writes.fresh⟩
          rw [leaves.records, moves.keys_eq]
          refine (Dictionary.get?_insert ..).trans (if_pos ?_)
          exact commits.path.symm

/-- A commit whose condition is not met changes no record and does not succeed. -/
theorem Step.of_conflict {place : Nat} {reported : List Block} {size : UInt64}
    {options : CommitOptions} {session : Session}
    (step : Step settings before (.commitKey place reported size options) outcome after)
    (found : before.sessionAt place = some session)
    (conflict : ¬ (Action.conditionOf session.key).Holds
      (before.service.records.keys.get? session.path)) :
    after.service.records = before.service.records ∧
      ∀ commit, outcome ≠ .keyCommitted commit := by
  cases step with
  | refused early => exact (early _ _ _ _ rfl).elim
  | absent => exact ⟨rfl, fun _ same => by cases same⟩
  | committed there effect =>
      cases there.symm.trans found
      cases effect with
      | untouched _ leaves => exact ⟨leaves.records, fun _ same => by cases same⟩
      | rejected _ leaves => exact ⟨leaves.records, fun _ same => by cases same⟩
      | kept _ writes => exact (conflict writes.holds).elim
      | settled _ writes => exact (conflict writes.holds).elim

/-- An operation keeps a world sound. -/
theorem Step.sound (step : Step settings before operation outcome after) (sound : before.Sound)
    (counting : after.Counting) : after.Sound := by
  have counted := step.generation counting
  have turn := step.turn counting
  have records := step.records sound.records
  have schedule := step.leaves.1
  refine ⟨records, ?_, ?_, ?_⟩
  · intro call
    rw [schedule]
    exact sound.faithful call
  · intro path stored found
    cases turn path with
    | kept same =>
        exact UInt64.lt_of_lt_of_le (sound.below path stored (same ▸ found)) counted
    | removed _ gone => cases gone.symm.trans found
    | written other there _ below =>
        cases there.symm.trans found
        exact below
  · intro place session found
    rcases step.sessionAt found with ⟨-, request, stands⟩ | ⟨old, there, continues⟩
    · exact ⟨stands.sound, (turn _).hosts (sound.hosts_opened stands) counted⟩
    · obtain ⟨prepared, hosts⟩ := sound.sessions place old there
      have still := (turn old.path).hosts hosts counted
      exact ⟨continues.sound prepared,
        Hosts.of_same still continues.previous continues.place.path⟩

theorem sound_start (allocator : Allocator) (clock : Clock) {outages : Outages}
    (faithful : outages.Faithful) : (start allocator clock outages).Sound where
  records := Records.sound_empty
  faithful := faithful
  below path stored found := by cases found
  sessions place session found := by cases found

/-- Every moment of a run of a sound world is sound. -/
theorem Sound.moment {world : World} {operations : List Operation} (sound : world.Sound)
    (counting : ∀ count, (world.moment settings operations count).Counting) (count : Nat) :
    (world.moment settings operations count).Sound := by
  refine moment_induction Sound (Nat.zero_le count) sound fun count operation _ next here => ?_
  have later := counting (count + 1)
  rw [moment_succ_of_getElem? next] at later ⊢
  exact (here.step settings operation).sound here later

/-- An operation leads from a moment of a run to the next. -/
theorem Sound.stepAt {world : World} {operations : List Operation} (sound : world.Sound)
    (counting : ∀ count, (world.moment settings operations count).Counting) {count : Nat}
    {operation : Operation} (next : operations[count]? = some operation) :
    Step settings (world.moment settings operations count) operation
      ((world.moment settings operations count).perform settings operation).1
      (world.moment settings operations (count + 1)) := by
  rw [moment_succ_of_getElem? next]
  exact (sound.moment counting count).step settings operation

/-- The schedule of outages is the same at every moment of a run. -/
theorem Sound.schedule_moment {world : World} {operations : List Operation} (sound : world.Sound)
    (counting : ∀ count, (world.moment settings operations count).Counting) (count : Nat) :
    (world.moment settings operations count).service.outages.schedule =
      world.service.outages.schedule := by
  apply moment_induction (fun now =>
    now.service.outages.schedule = world.service.outages.schedule) (Nat.zero_le count) rfl
  intro count operation _ next here
  exact (sound.stepAt counting next).leaves.1.trans here

/-- What is never refused is not refused later in a run. -/
theorem Sound.silent_moment {world : World} {operations : List Operation} (sound : world.Sound)
    (counting : ∀ count, (world.moment settings operations count).Counting)
    (silent : world.service.outages.Silent) (count : Nat) :
    (world.moment settings operations count).service.outages.Silent :=
  silent.of_schedule (sound.schedule_moment counting count)

/-- The world after a run is sound, and has the schedule of outages that it started with. -/
theorem Sound.run {world : World} {operations : List Operation} (sound : world.Sound)
    (counting : ∀ count, (world.moment settings operations count).Counting) :
    (world.run settings operations).Sound ∧
      (world.run settings operations).service.outages.schedule =
        world.service.outages.schedule :=
  moment_length ▸ ⟨sound.moment counting _, sound.schedule_moment counting _⟩

/-- A world that a run leads to is sound, and has the schedule of outages that was set. -/
theorem sound_of_reached {allocator : Allocator} {clock : Clock} {outages : Outages}
    (faithful : outages.Faithful) {operations : List Operation}
    (counting : (start allocator clock outages).Throughout settings Counting operations)
    {world : World} (reached : world = (start allocator clock outages).run settings operations) :
    world.Sound ∧ world.service.outages.schedule = outages.schedule :=
  reached ▸ (sound_start allocator clock faithful).run
    (counting.moment (counting_start allocator clock outages))

end World

end ObjectLedger
