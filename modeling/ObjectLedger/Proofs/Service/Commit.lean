import ObjectLedger.Proofs.Service.Session
import ObjectLedger.Proofs.Store.Charge
import ObjectLedger.Service.Commit

/-! # How far a commit comes

A commit that finds the stored record that its session was opened on writes one key and moves
the usage of one bucket. Where it stops, the store and the allocator are in one of four states
(`CommitEffect`): nothing was done, the key was not written or its write was undone, the key was
written and could not be undone, or all was done.
-/

namespace ObjectLedger

/-- The blocks of the stored record that a committed session replaces. -/
def Session.replaced (session : Session) : List Block :=
  match session.previous with
  | some old => if session.versioning then [] else old.allBlocks
  | none => []

/-- Under the path of a session stands the record that it was opened on. -/
def Session.FoundIn (session : Session) (records : Records) : Prop :=
  match session.previous with
  | some old => ∃ stored, records.keys.get? session.path = some stored ∧
      stored.HoldsKey session.path old
  | none => records.keys.get? session.path = none

/-- What is stored at the generation of the record that a session found is that record. -/
structure Service.Hosts (service : Service) (session : Session) : Prop where
  earlier : ∀ old, session.previous = some old → old.generation < service.nextGeneration
  same : ∀ old, session.previous = some old → ∀ stored,
    service.records.keys.get? session.path = some stored →
      stored.generation = old.generation → stored.HoldsKey session.path old

/-- The condition of a commit holds only if its session's record is still stored. -/
theorem Session.foundIn_of_holds {session : Session} {service : Service} (sound : session.Sound)
    (hosts : service.Hosts session)
    (holds : (Action.conditionOf session.key).Holds
      (service.records.keys.get? session.path)) : session.FoundIn service.records := by
  unfold Session.FoundIn
  cases previous : session.previous with
  | none =>
      have expected : session.key.expected = none := by rw [sound.expected, previous]; rfl
      rw [Action.conditionOf, expected] at holds
      exact holds
  | some old =>
      have expected : session.key.expected = some old.generation := by
        rw [sound.expected, previous]; rfl
      rw [Action.conditionOf, expected] at holds
      obtain ⟨stored, found, generation⟩ := Option.map_eq_some_iff.1 holds
      exact ⟨stored, found, hosts.same old previous stored found generation⟩

/-- A key that a commit of a session is to write, with the committed blocks and those left
over. -/
structure Session.Commits (session : Session) (reported : List Block) (options : CommitOptions)
    (written : KeyRecord) (committed leftOver : List Block) : Prop where
  wellFormed : written.WellFormed
  place : session.key.SamePlace written
  replication : written.replication = session.key.replication
  history : ∃ group, written.history = session.older ++ [group] ∧ group.blocks = committed
  accounted : options.unchecked = false → ∀ id, (committed.map (·.id)).count id +
    (leftOver.map (·.id)).count id = (session.allocated.map (·.id)).count id
  /-- A report that is taken as it is leaves over what it does not name. -/
  verbatim : options.unchecked = true → committed.map (·.id) = reported.map (·.id) ∧
    leftOver = session.allocated.filter fun block => block.id ∉ reported.map (·.id)
  /-- The key is that of the session with the report, at a size, time and generation. -/
  reconciled : ∃ key outcome, session.key.commit reported options = .ok (key, outcome) ∧
    outcome.committed = committed ∧ written = { key with
      size := written.size
      modified := written.modified
      generation := written.generation
      expected := written.expected }

/-- A commit writes the key under the path of its session. -/
theorem Session.Commits.path {session : Session} {reported : List Block}
    {options : CommitOptions} {written : KeyRecord} {committed leftOver : List Block}
    (commits : session.Commits reported options written committed leftOver) :
    keyPath written.volume written.bucket written.name = session.path :=
  commits.place.path.symm

/-- The bytes that a commit is charged for: those of the committed blocks, less those of the
blocks they replace. -/
def Session.Charged (session : Session) (written : KeyRecord) (committed : List Block)
    (bytes : Int64) : Prop :=
  ∃ added freed, written.replication.charge committed = .ok added ∧
    (session.previous.getD session.key).replication.charge session.replaced = .ok freed ∧
      bytes = added - freed

/-- The change in the number of keys by a commit. -/
def Session.addedKeys (session : Session) : Int64 := if session.previous.isSome then 0 else 1

/-- The lengths that a commit of a report is charged for can be counted, and those of the blocks
that it replaces. -/
def Session.Counts (session : Session) (reported : List Block) (options : CommitOptions) : Prop :=
  (∀ key outcome, session.key.commit reported options = .ok (key, outcome) →
    session.key.replication.Counts outcome.committed) ∧
  (session.previous.getD session.key).replication.Counts session.replaced

instance (session : Session) (reported : List Block) (options : CommitOptions) :
    Decidable (session.Counts reported options) :=
  decidable_of_iff ((∀ result ∈ (session.key.commit reported options).toOption,
      session.key.replication.Counts result.2.committed) ∧
    (session.previous.getD session.key).replication.Counts session.replaced)
    (and_congr_left' (forall_mem_toOption_iff (session.key.commit reported options)
      fun _ outcome => session.key.replication.Counts outcome.committed))

/-- A report is to be taken as it is, and the settings do not allow that. -/
def Settings.Forbids (settings : Settings) (options : CommitOptions) : Prop :=
  options.unchecked = true ∧ settings.allowUnchecked = false

instance (settings : Settings) (options : CommitOptions) : Decidable (settings.Forbids options) :=
  inferInstanceAs (Decidable (_ ∧ _))

/-- The key that a commit of a report is to write, and what becomes of the blocks. -/
structure Session.Prepares (session : Session) (reported : List Block) (size : UInt64)
    (options : CommitOptions) (key : KeyRecord) (outcome : Reconciliation) : Prop where
  commits : session.Commits reported options key outcome.committed
    (Action.unreferenced outcome session.allocated options.unchecked)
  built : session.key.commit reported options =
    .ok ({ session.key with history := key.history }, outcome)
  fields : key = { session.key with history := key.history, size, modified := key.modified }
  versions : key.history.map (·.version) = session.key.history.map (·.version)

/-- The state with one time read. -/
def Service.ticked (service : Service) : Service :=
  { service with clock := { service.clock with taken := service.clock.taken + 1 } }

/-- The bucket that a name leads to may grow by deltas within its quotas. -/
def Records.Allows (records : Records) (volume name : String) (bytes keys : Int64) : Prop :=
  ∃ home, records.resolve? volume name = some home ∧ home.checkBytes bytes = .ok () ∧
    home.checkKeys keys = .ok ()

/-- The call that was to undo the key write of a commit was made, and refused. -/
def Service.UndoRefused (before after : Service) (session : Session) : Prop :=
  match session.previous with
  | some _ => before.Refused after .writeKey (before.outages.calls .writeKey + 1)
  | none => before.RefusedNext after .deleteKey

/-- A store that takes every call takes the one that undoes a commit. -/
theorem Service.undoes_of_sparesStore {before : Service} (spares : before.outages.SparesStore)
    (after : Service) (session : Session) : ¬ before.UndoRefused after session := by
  unfold UndoRefused
  split
  · intro refused
    rcases spares _ _ refused.1 with same | same <;> cases same
  · intro refused
    rcases spares _ _ refused.1 with same | same <;> cases same

/-- A commit over an old record that wrote no key twice made no call to undo its write. -/
theorem Service.undoes_of_calls_le {before after : Service} {session : Session}
    (old : session.previous ≠ none)
    (once : after.outages.calls .writeKey ≤ before.outages.calls .writeKey + 1) :
    ¬ before.UndoRefused after session := by
  obtain ⟨record, previous⟩ := Option.ne_none_iff_exists'.1 old
  unfold UndoRefused
  rw [previous]
  rintro ⟨-, made⟩
  omega

namespace Action

open Service

variable {before : Service}

/-- The quotas are checked without a change, and what passes is within them. -/
theorem ensures_checkQuota (sound : before.records.BucketsSound) (volume bucket : String)
    (bytes keys : Int64) : (checkQuota volume bucket bytes keys).Ensures before
    (fun _ after => before.Idle after ∧ before.records.Allows volume bucket bytes keys)
    (fun fault after => before.Ended after fault) := by
  refine ((ensures_resolveBucket sound volume bucket).mono (fun _ _ known => known)
    fun fault after known => known.1.ended fault).bind fun home after known => ?_
  obtain ⟨idle, leads, -⟩ := known
  refine ensures_ofRecord_bind (fun _ bytesFit => ?_) fun _ _ => idle
  cases keysFit : home.checkKeys keys with
  | ok _ => exact ⟨idle, home, leads, bytesFit, keysFit⟩
  | error cause => exact idle

/-- A key is given a generation above its own and above all given out before. -/
theorem ensures_advanced (key : KeyRecord) : (advanced key).Ensures before
    (fun written after => before.Idle after ∧ ∃ generation,
      written = { key with generation, expected := none } ∧
        before.nextGeneration ≤ generation ∧ generation < after.nextGeneration)
    (fun fault after => before.Ended after fault) := by
  refine ((ensures_generationAbove key.generation).mono (fun _ _ known => known) ?_).bind
    fun generation after known => ?_
  · rintro _ after ⟨⟨cause, rfl⟩, halted⟩
    exact halted
  · obtain ⟨idle, fresh, above, below⟩ := known
    rw [KeyRecord.advanceGeneration, if_pos (UInt64.le_of_lt above)]
    exact ensures_pure ⟨idle, generation, rfl, fresh, below⟩

/-- A committed key was written at a fresh generation over what its condition asks for. -/
structure Written (before after : Service) (key written : KeyRecord) (frame : List UInt8) :
    Prop where
  fields : written = { key with generation := written.generation, expected := none }
  fresh : before.nextGeneration ≤ written.generation
  below : written.generation < after.nextGeneration
  persisted : written.persist = .ok frame
  holds : (conditionOf key).Holds
    (before.records.keys.get? (keyPath key.volume key.bucket key.name))
  idle : Idle { before.counted .writeKey with records := before.records.putKey written frame } after

/-- Writing a key that passed the quotas. -/
theorem ensures_writeAdvanced {start : Service} (idle : start.Idle before) (key : KeyRecord) :
    (do
      let written ← advanced key
      writeKey written (conditionOf key)
      pure written : Action KeyRecord).Ensures before
      (fun written after => ∃ frame, Written start after key written frame)
      (fun fault after =>
        start.Ended after fault ∨ (start.counted .writeKey).Ended after fault) := by
  refine ((ensures_advanced key).mono (fun _ _ known => known)
    fun _ _ known => .inl (idle.trans_ended known)).bind fun written second known => ?_
  obtain ⟨advanced, generation, rfl, fresh, below⟩ := known
  have still := idle.trans advanced
  refine ((ensures_writeKey _ (conditionOf key)).mono (fun _ _ known => known) ?_).bind
    fun _ third known => ?_
  · rintro fault after ⟨rfl, -⟩
    exact .inr ((still.counted .writeKey).ended fault)
  · obtain ⟨records, changed, rfl⟩ := known
    rw [still.records] at changed
    obtain ⟨frame, persisted, holds, rfl⟩ := Records.writeKey_eq_ok_iff.1 changed
    exact ensures_pure ⟨frame, rfl, UInt64.le_trans idle.generation fresh, below, persisted, holds,
      (still.counted .writeKey).withRecords _⟩

/-- A committed key is written within the quotas, or the store keeps what it had. -/
theorem ensures_writeCommitted (sound : before.records.BucketsSound) (settings : Settings)
    (key : KeyRecord) (bytes keys : Int64) :
    (writeCommitted settings key bytes keys).Ensures before
      (fun written after => (∃ frame, Written before after key written frame) ∧
        (settings.enforceQuota = true → before.records.Allows key.volume key.bucket bytes keys))
      (fun fault after =>
        before.Ended after fault ∨ (before.counted .writeKey).Ended after fault) := by
  unfold writeCommitted
  split
  · refine ((ensures_checkQuota sound key.volume key.bucket bytes keys).mono
      (fun _ _ known => known) fun _ _ known => .inl known).bind fun _ _ known => ?_
    exact (ensures_writeAdvanced known.1 key).mono (fun _ _ written => ⟨written, fun _ => known.2⟩)
      fun _ _ known => known
  · rename_i free
    exact (ensures_writeAdvanced (Idle.refl before) key).mono
      (fun _ _ written => ⟨written, fun enforced => (free enforced).elim⟩) fun _ _ known => known

/-- The call by which a commit is undone. -/
def undoing (previous : Option KeyRecord) : Method :=
  if previous.isSome then .writeKey else .deleteKey

/-- Undoing the write of a key restores the records from before it, unless the store refuses
the call. -/
theorem ensures_rollBack {records : Records} (sound : records.Sound) {key : KeyRecord}
    (wellFormed : key.WellFormed) {frame : List UInt8} (persisted : key.persist = .ok frame)
    (state : before.records = records.putKey key frame) {previous : Option KeyRecord}
    (replaces : match previous with
      | some old => ∃ stored,
          records.keys.get? (keyPath key.volume key.bucket key.name) = some stored ∧
            stored.HoldsKey (keyPath key.volume key.bucket key.name) old
      | none => records.keys.get? (keyPath key.volume key.bucket key.name) = none) :
    (rollBack key previous).Ensures before
      (fun _ after => Idle { before.counted (undoing previous) with records } after)
      (fun fault after => (before.counted (undoing previous)).Ended after fault ∧
        (∃ cause, fault = .error cause) ∧ before.RefusedNext after (undoing previous)) := by
  have standing : before.records.keys.get? (keyPath key.volume key.bucket key.name) =
      some ⟨key.generation, frame⟩ := by
    rw [state]
    exact (Dictionary.get?_insert ..).trans (if_pos rfl)
  have ours : (Precondition.generation key.generation).Holds
      (before.records.keys.get? (keyPath key.volume key.bucket key.name)) := by
    rw [standing]
    rfl
  cases previous with
  | some old =>
      obtain ⟨stored, found, holds⟩ := replaces
      have writes : before.records.writeKey old (.generation key.generation) = .ok records := by
        refine Records.writeKey_eq_ok_iff.2 ⟨stored.bytes, holds.persisted, ?_, ?_⟩
        · rw [← holds.path]
          exact ours
        · rw [state, Records.putKey_putKey_of_holds found holds rfl]
      refine (ensures_writeKey old _).mono ?_ ?_
      · rintro _ after ⟨restored, changed, rfl⟩
        cases changed.symm.trans writes
        exact Idle.refl _
      · rintro fault after ⟨rfl, cause, rfl, refused | failed⟩
        · exact ⟨Idle.refl _, ⟨cause, rfl⟩, refused⟩
        · cases failed.symm.trans writes
  | none =>
      have soundBefore : before.records.Sound := state ▸ sound.putKey wellFormed persisted
      refine ((ensures_deleteKey soundBefore key.volume key.bucket key.name _).mono
        (fun _ _ known => known) ?_).bind fun removed after known => ?_
      · rintro fault after ⟨rfl, same, refused | failed⟩
        · exact ⟨(Idle.refl _).ended fault, same, refused⟩
        · exact (failed ours).elim
      · obtain ⟨-, -, idle⟩ := known
        rw [state, Records.dropKey_putKey_of_absent replaces] at idle
        exact ensures_pure idle

/-- A commit went as far as writing its key over the record that its session found. -/
structure KeyWritten (before after : Service) (session : Session) (written : KeyRecord)
    (frame : List UInt8) : Prop where
  persisted : written.persist = .ok frame
  holds : (conditionOf session.key).Holds (before.records.keys.get? session.path)
  found : session.FoundIn before.records
  unconditional : written.expected = none
  fresh : before.nextGeneration ≤ written.generation
  below : after.nextGeneration = 0 ∨ written.generation < after.nextGeneration

/-- How far a commit comes, and the records and the allocator that it leaves. -/
inductive CommitEffect (settings : Settings) (before : Service) (session : Session)
    (reported : List Block) (options : CommitOptions) : Except Fault Commit → Service → Prop
  /-- Nothing was done. -/
  | untouched {fault : Fault} {after : Service}
      (reason : ∀ cause, fault = .error cause →
        (options.unchecked = true ∧ settings.allowUnchecked = false) ∨
          before.RefusedNext after .deleteBlocks)
      (leaves : before.Leaves after before.records before.allocator) :
      CommitEffect settings before session reported options (.error fault) after
  /-- The key was not written, or its write was undone, and the blocks were handed back. -/
  | rejected {cause : StoreError} {after : Service} {written : KeyRecord}
      {committed leftOver : List Block}
      (commits : session.Commits reported options written committed leftOver)
      (leaves : before.Leaves after before.records
        (before.allocator.delete (committed ++ leftOver))) :
      CommitEffect settings before session reported options (.error (.error cause)) after
  /-- The key was written and its write was not undone, although its bucket was not charged. -/
  | kept {fault : Fault} {after : Service} {written : KeyRecord} {committed leftOver : List Block}
      {frame : List UInt8} {allocator : Allocator}
      (commits : session.Commits reported options written committed leftOver)
      (writes : KeyWritten before after session written frame)
      (reason : ∀ cause, fault = .error cause → before.UndoRefused after session)
      (released : allocator = before.allocator ∨ allocator = before.allocator.delete leftOver)
      (leaves : before.Leaves after (before.records.putKey written frame) allocator) :
      CommitEffect settings before session reported options (.error fault) after
  /-- The key was written and its bucket charged. -/
  | settled {result : Except Fault Commit} {after : Service} {written : KeyRecord}
      {committed leftOver : List Block} {frame : List UInt8} {bytes : Int64} {records : Records}
      {allocator : Allocator}
      (commits : session.Commits reported options written committed leftOver)
      (writes : KeyWritten before after session written frame)
      (charged : session.Charged written committed bytes)
      (moves : (before.records.putKey written frame).Moves session.key.volume session.key.bucket
        bytes session.addedKeys records)
      (released : (∃ outcome, outcome.committed = committed ∧
            result = .ok ⟨written, outcome, leftOver ++ session.replaced⟩) ∧
          allocator = before.allocator.delete (leftOver ++ session.replaced) ∨
        (∃ fault, result = .error fault) ∧ allocator = before.allocator ∧
          before.RefusedNext after .deleteBlocks)
      (leaves : before.Leaves after records allocator) :
      CommitEffect settings before session reported options result after

/-- The part of a commit after its key was written. -/
def chargeCommit (settings : Settings) (session : Session) (outcome : Reconciliation)
    (leftOver : List Block) (bytes : Int64) (key : KeyRecord) : Action Commit := do
  match ← attempt (chargeUsage settings key.volume key.bucket bytes session.addedKeys) with
  | .error cause =>
    match ← attempt (rollBack key session.previous) with
    | .ok () => deleteBlocks (outcome.committed ++ leftOver)
    | .error _ => deleteBlocks leftOver
    fail cause
  | .ok () =>
    let released := leftOver ++ session.replaced
    deleteBlocks released
    pure { key, reconciliation := outcome, released }

/-- The part of a commit from the write of its key on. -/
def storeCommit (settings : Settings) (session : Session) (outcome : Reconciliation)
    (leftOver : List Block) (bytes : Int64) (key : KeyRecord) : Action Commit := do
  match ← attempt (writeCommitted settings key bytes session.addedKeys) with
  | .error cause =>
    deleteBlocks (outcome.committed ++ leftOver)
    fail cause
  | .ok key => chargeCommit settings session outcome leftOver bytes key

/-- A commit prepares its key and its charge before it writes anything. -/
theorem commitKey_eq (settings : Settings) (session : Session) (reported : List Block)
    (size : UInt64) (options : CommitOptions) :
    commitKey settings session reported size options = (do
      if options.unchecked && !settings.allowUnchecked then fail (.settings .uncheckedCommit)
      let (key, outcome) ← ofRecord (session.key.commit reported options)
      let time ← now
      let key := { key with size, modified := time }
      let added ← ofWord (key.replication.charge outcome.committed)
      let freed ← ofWord ((session.previous.getD key).replication.charge session.replaced)
      storeCommit settings session outcome
        (unreferenced outcome session.allocated options.unchecked) (added - freed) key) := by
  rfl

/-- What is known while a commit goes on after its key was written. -/
structure Ongoing (start before : Service) (session : Session) (reported : List Block)
    (options : CommitOptions) (written : KeyRecord) (committed leftOver : List Block)
    (frame : List UInt8) : Prop where
  sound : start.records.Sound
  commits : session.Commits reported options written committed leftOver
  persisted : written.persist = .ok frame
  holds : (conditionOf session.key).Holds (start.records.keys.get? session.path)
  found : session.FoundIn start.records
  unconditional : written.expected = none
  fresh : start.nextGeneration ≤ written.generation
  below : written.generation < before.nextGeneration
  counting : start.nextGeneration ≤ before.nextGeneration
  idle : Idle { start.counted .writeKey with records := start.records.putKey written frame } before

namespace Ongoing

variable {start after : Service} {session : Session} {reported : List Block}
  {options : CommitOptions} {written : KeyRecord} {committed leftOver : List Block}
  {frame : List UInt8}

/-- A key that was written stays the one of its commit, up to any later state. -/
theorem keyWritten
    (ongoing : Ongoing start before session reported options written committed leftOver frame)
    (after : Service)
    (generation : after.nextGeneration = 0 ∨ before.nextGeneration ≤ after.nextGeneration) :
    KeyWritten start after session written frame where
  persisted := ongoing.persisted
  holds := ongoing.holds
  found := ongoing.found
  unconditional := ongoing.unconditional
  fresh := ongoing.fresh
  below := generation.imp_right (UInt64.lt_of_lt_of_le ongoing.below)

/-- What the cleanup leaves is what the commit leaves. -/
theorem leaves
    (ongoing : Ongoing start before session reported options written committed leftOver frame)
    {records : Records} {allocator : Allocator}
    (left : before.Leaves after records allocator) : start.Leaves after records allocator where
  records := left.records
  allocator := left.allocator
  schedule := left.schedule.trans ongoing.idle.schedule
  generation := left.generation.imp_right (UInt64.le_trans ongoing.counting)

/-- A refused deletion of blocks was refused from the start. -/
theorem refusedDeletion
    (ongoing : Ongoing start before session reported options written committed leftOver frame)
    (refused : before.RefusedNext after .deleteBlocks) :
    start.RefusedNext after .deleteBlocks := by
  have lasting : Method.deleteBlocks.Lasting := by simp [Method.Lasting]
  have counted : (start.counted .writeKey).RefusedNext after .deleteBlocks :=
    ongoing.idle.refusedNext lasting refused
  exact refusedNext_of_counted (by decide) counted

/-- Where the next call of the undoing method is refused, the undoing is: the commit itself has
written a key before. -/
theorem undoRefused
    (ongoing : Ongoing start before session reported options written committed leftOver frame)
    (refused : before.RefusedNext after (undoing session.previous)) :
    start.UndoRefused after session := by
  have lasting : (undoing session.previous).Lasting := by
    unfold undoing
    split <;> simp [Method.Lasting]
  have next : (start.counted .writeKey).RefusedNext after (undoing session.previous) :=
    ongoing.idle.refusedNext lasting refused
  unfold UndoRefused
  cases previous : session.previous with
  | none =>
      rw [previous] at next
      exact refusedNext_of_counted (by decide) next
  | some old =>
      rw [previous] at next
      unfold RefusedNext at next
      rwa [undoing, Option.isSome_some, if_pos rfl, calls_counted_self] at next

end Ongoing

/-- A commit that cannot charge its bucket undoes the write of its key and hands its blocks
back, or fails at that too. -/
theorem ensures_undoCommit {settings : Settings} {start : Service} {session : Session}
    {reported : List Block} {options : CommitOptions} {written : KeyRecord}
    {committed leftOver : List Block} {frame : List UInt8}
    (ongoing : Ongoing start before session reported options written committed leftOver frame)
    {cause : StoreError} {α : Type} {ok : α → Service → Prop} :
    (do
      match ← attempt (rollBack written session.previous) with
      | .ok () => deleteBlocks (committed ++ leftOver)
      | .error _ => deleteBlocks leftOver
      fail cause : Action α).Ensures before ok
      (fun fault after =>
        CommitEffect settings start session reported options (.error fault) after) := by
  have replaces := ongoing.found
  unfold Session.FoundIn at replaces
  rw [← ongoing.commits.path] at replaces
  have other : Method.deleteBlocks ≠ undoing session.previous := by
    unfold undoing
    split <;> decide
  have lasting : Method.deleteBlocks.Lasting := by simp [Method.Lasting]
  refine ((ensures_rollBack ongoing.sound ongoing.commits.wellFormed ongoing.persisted
    ongoing.idle.records replaces).attempted ?_).bind fun result middle known => ?_
  · rintro overflow after ⟨-, ⟨error, same⟩, -⟩
    cases same
  cases result with
  | ok _ =>
      change Idle { before.counted (undoing session.previous) with records := start.records }
        middle at known
      refine ensures_deleteBlocks_fail ?_ fun error refused => ?_
      · refine .rejected ongoing.commits (ongoing.leaves ⟨known.records, ?_, known.schedule,
          .inr known.generation⟩)
        change middle.allocator.delete _ = _
        rw [known.allocator]
        exact congrArg (Allocator.delete · _) ongoing.idle.allocator
      · have counted : (before.counted (undoing session.previous)).RefusedNext
            (middle.counted .deleteBlocks) .deleteBlocks := known.refusedNext lasting refused
        have next := refusedNext_of_counted other counted
        exact .untouched (fun _ _ => .inr (ongoing.refusedDeletion next)) (ongoing.leaves
          ⟨known.records, known.allocator.trans ongoing.idle.allocator, known.schedule,
            .inr known.generation⟩)
  | error refusal =>
      obtain ⟨(idle : (before.counted (undoing session.previous)).Idle middle), -, undone⟩ := known
      have writes := ongoing.keyWritten middle (.inr idle.generation)
      -- Handing back blocks afterwards takes no call of the undoing method.
      have reason (last : Service) (onward : ∀ method,
          middle.outages.calls method ≤ last.outages.calls method) :
          start.UndoRefused last session :=
        ongoing.undoRefused (Refused.of_calls undone rfl (onward _))
      have allocator : middle.allocator = start.allocator :=
        idle.allocator.trans ongoing.idle.allocator
      refine ensures_deleteBlocks_fail ?_ fun error refused => ?_
      · refine .kept ongoing.commits { writes with }
          (fun _ _ => reason _ (middle.onward_counted .deleteBlocks)) (.inr rfl)
          (ongoing.leaves ⟨idle.records.trans ongoing.idle.records, ?_, idle.schedule,
            .inr idle.generation⟩)
        change middle.allocator.delete _ = _
        rw [allocator]
      · exact .kept ongoing.commits { writes with }
          (fun _ _ => reason _ (middle.onward_counted .deleteBlocks)) (.inl rfl)
          (ongoing.leaves ⟨idle.records.trans ongoing.idle.records, allocator, idle.schedule,
            .inr idle.generation⟩)

/-- After its key was written, a commit charges the bucket, or undoes the write, or can do
neither. -/
theorem ensures_chargeCommit (settings : Settings) {start : Service} {session : Session}
    {reported : List Block} {options : CommitOptions} {written : KeyRecord}
    {committed leftOver : List Block} {frame : List UInt8}
    (ongoing : Ongoing start before session reported options written committed leftOver frame)
    {outcome : Reconciliation} (blocks : outcome.committed = committed) {bytes : Int64}
    (charged : session.Charged written committed bytes) :
    (chargeCommit settings session outcome leftOver bytes written).Ensures before
      (fun commit after => CommitEffect settings start session reported options (.ok commit) after)
      (fun fault after =>
        CommitEffect settings start session reported options (.error fault) after) := by
  subst blocks
  have soundBefore : before.records.Sound := ongoing.idle.records.symm ▸
    ongoing.sound.putKey ongoing.commits.wellFormed ongoing.persisted
  have place := ongoing.commits.place
  refine ((ensures_chargeUsage soundBefore.toBucketsSound settings written.volume written.bucket
    bytes session.addedKeys).attempted ?_).bind fun result middle known => ?_
  · rintro overflow after ⟨halted, -⟩
    exact .kept ongoing.commits (ongoing.keyWritten _ (Ended.halted halted).generation)
      (fun _ same => by cases same) (.inl rfl)
      (ongoing.leaves ⟨(Ended.halted halted).records.trans ongoing.idle.records,
        (Ended.halted halted).allocator.trans ongoing.idle.allocator,
        (Ended.halted halted).schedule, (Ended.halted halted).generation⟩)
  cases result with
  | error cause =>
      have known : before.Idle middle := known.1
      have still : Ongoing start middle session reported options written outcome.committed
          leftOver frame :=
        { ongoing with
          below := UInt64.lt_of_lt_of_le ongoing.below known.generation
          counting := UInt64.le_trans ongoing.counting known.generation
          idle := ongoing.idle.trans known }
      exact ensures_undoCommit still
  | ok _ =>
      obtain ⟨records, moves, idle⟩ := known
      rw [ongoing.idle.records, ← place.volume, ← place.bucket] at moves
      have allocator : middle.allocator = start.allocator :=
        idle.allocator.trans ongoing.idle.allocator
      have writes := ongoing.keyWritten middle (.inr idle.generation)
      have lasting : Method.deleteBlocks.Lasting := by simp [Method.Lasting]
      refine ((ensures_deleteBlocks _).mono (fun _ _ known => known) ?_).bind
        fun _ after known => ?_
      · rintro fault after ⟨rfl, ⟨error, rfl⟩, refused⟩
        have handed : before.RefusedNext (middle.counted .deleteBlocks) .deleteBlocks :=
          idle.refusedNext lasting refused
        have next := ongoing.refusedDeletion handed
        exact .settled ongoing.commits { writes with } charged moves (.inr ⟨⟨_, rfl⟩, rfl, next⟩)
          (ongoing.leaves ⟨idle.records, allocator, idle.schedule, .inr idle.generation⟩)
      · subst known
        refine ensures_pure (.settled ongoing.commits { writes with } charged moves
          (.inl ⟨⟨outcome, rfl, rfl⟩, rfl⟩) (ongoing.leaves
            ⟨idle.records, ?_, idle.schedule, .inr idle.generation⟩))
        change middle.allocator.delete _ = _
        rw [allocator]

/-- A commit may give its key another generation and drop its condition. -/
theorem commits_of_fields {session : Session} {reported : List Block} {options : CommitOptions}
    {key written : KeyRecord} {committed leftOver : List Block}
    (commits : session.Commits reported options key committed leftOver)
    (fields : written = { key with generation := written.generation, expected := none }) :
    session.Commits reported options written committed leftOver := by
  obtain ⟨base, outcome, built, same, made⟩ := commits.reconciled
  rw [fields]
  exact ⟨{ commits.wellFormed with }, commits.place.trans ⟨rfl, rfl, rfl⟩, commits.replication,
    commits.history, commits.accounted, commits.verbatim, base, outcome, built, same,
    by rw [made]⟩

/-- From the write of its key on, a commit writes, charges and hands back, or stops. -/
theorem ensures_storeCommit (settings : Settings) {start : Service} (idle : start.Idle before)
    (sound : start.records.Sound) {session : Session} (prepared : session.Sound)
    (hosts : start.Hosts session) {reported : List Block} {options : CommitOptions}
    {key : KeyRecord} {committed leftOver : List Block}
    (commits : session.Commits reported options key committed leftOver)
    (expected : key.expected = session.key.expected) {outcome : Reconciliation}
    (blocks : outcome.committed = committed) {bytes : Int64}
    (charged : session.Charged key committed bytes) :
    (storeCommit settings session outcome leftOver bytes key).Ensures before
      (fun commit after => CommitEffect settings start session reported options (.ok commit) after)
      (fun fault after =>
        CommitEffect settings start session reported options (.error fault) after) := by
  have soundBefore : before.records.Sound := idle.records.symm ▸ sound
  have lasting : Method.deleteBlocks.Lasting := by simp [Method.Lasting]
  refine ((ensures_writeCommitted soundBefore.toBucketsSound settings key bytes
    session.addedKeys).attempted ?_).bind fun result middle known => ?_
  · rintro overflow after (halted | halted)
    · exact .untouched (fun _ same => by cases same) (idle.trans_halted halted).leaves
    · exact .untouched (fun _ same => by cases same)
        ⟨(Ended.halted halted).records.trans idle.records,
          (Ended.halted halted).allocator.trans idle.allocator,
          (Ended.halted halted).schedule.trans idle.schedule,
          (Ended.halted halted).generation.imp_right (UInt64.le_trans idle.generation)⟩
  cases result with
  | error cause =>
      subst blocks
      -- Whether the write was tried or not, only its call was counted.
      have left : start.Leaves middle start.records start.allocator ∧
          ∀ last, middle.RefusedNext last .deleteBlocks → start.RefusedNext last .deleteBlocks := by
        rcases known with (known : before.Idle middle) |
          (known : (before.counted .writeKey).Idle middle)
        · exact ⟨(idle.trans known).halted.leaves, fun _ => (idle.trans known).refusedNext lasting⟩
        · exact ⟨⟨known.records.trans idle.records, known.allocator.trans idle.allocator,
            known.schedule.trans idle.schedule, .inr (UInt64.le_trans idle.generation
              known.generation)⟩, fun _ refused => idle.refusedNext lasting
                (refusedNext_of_counted (by decide) (known.refusedNext lasting refused))⟩
      obtain ⟨leaves, refuses⟩ := left
      refine ensures_deleteBlocks_fail (.rejected commits ⟨leaves.records, ?_, leaves.schedule,
        leaves.generation⟩) fun error refused => .untouched (fun _ _ => .inr (refuses _ refused))
          ⟨leaves.records, leaves.allocator, leaves.schedule, leaves.generation⟩
      change middle.allocator.delete _ = _
      rw [leaves.allocator]
  | ok written =>
      obtain ⟨⟨frame, writes⟩, -⟩ := known
      have holds := writes.holds
      rw [commits.path, idle.records, show conditionOf key = conditionOf session.key by
        unfold conditionOf; rw [expected]] at holds
      have moved := writes.idle
      rw [idle.records] at moved
      have replication : written.replication = key.replication := by rw [writes.fields]
      have ongoing : Ongoing start middle session reported options written committed leftOver
          frame :=
        { sound
          commits := commits_of_fields commits writes.fields
          persisted := writes.persisted
          holds
          found := session.foundIn_of_holds prepared hosts holds
          unconditional := by rw [writes.fields]
          fresh := UInt64.le_trans idle.generation writes.fresh
          below := writes.below
          counting := UInt64.le_trans idle.generation moved.generation
          idle := ((idle.counted .writeKey).withRecords _).trans moved }
      exact ensures_chargeCommit settings ongoing blocks (by
        unfold Session.Charged
        rw [replication]
        exact charged)

/-- The clock is read without any effect on the store. -/
theorem idle_ticked (service : Service) : service.Idle service.ticked :=
  ⟨⟨rfl, rfl, rfl, fun _ _ => rfl, fun _ => Nat.le_refl _⟩, UInt64.le_refl _⟩

/-- A commit is forbidden, overflows because lengths cannot be counted, or goes on to write what
it prepared. -/
theorem ensures_prepared {settings : Settings} {session : Session} (prepared : session.Sound)
    {reported : List Block} {size : UInt64} {options : CommitOptions}
    {ok : Commit → Service → Prop} {bad : Fault → Service → Prop}
    (forbidden : settings.Forbids options → bad (.error (.settings .uncheckedCommit)) before)
    (uncounted : ¬ settings.Forbids options → ¬ session.Counts reported options →
      ∀ cause, bad (.overflow cause) before.ticked)
    (stores : ¬ settings.Forbids options → session.Counts reported options →
      ∀ key outcome bytes, session.Prepares reported size options key outcome →
        session.Charged key outcome.committed bytes →
        (storeCommit settings session outcome
          (unreferenced outcome session.allocated options.unchecked) bytes key).Ensures
            before.ticked ok bad) :
    (commitKey settings session reported size options).Ensures before ok bad := by
  obtain ⟨group, history⟩ := prepared.history
  obtain ⟨committed, outcome, built, version, stamped, blocks, accounted, verbatim⟩ :=
    KeyRecord.commit_of_history history reported options
  rw [commitKey_eq, built]
  split
  · rename_i refused
    exact ensures_fail_bind (forbidden (by simpa [Settings.Forbids] using refused))
  rename_i allowed
  have permits : ¬ settings.Forbids options := by simpa [Settings.Forbids] using allowed
  refine ensures_ofRecord_bind (fun _ same => ?_) fun _ failed => nomatch failed
  cases same
  have ticks : now.Ensures before (fun _ after => after = before.ticked) bad := rfl
  refine ticks.bind fun time first ticked => ?_
  subst ticked
  -- The key that replaces nothing is charged for no block, so its time and size do not matter.
  have replacing : (session.previous.getD { session.key with
      history := session.older ++ [committed], size, modified := time }).replication =
      (session.previous.getD session.key).replication := by
    cases session.previous <;> rfl
  refine ensures_ofWord_bind (fun added addedCharge => ?_) fun cause failed =>
    uncounted permits (fun counts =>
      Replication.not_counts_of_charge failed (counts.1 _ _ built)) cause
  rw [replacing]
  refine ensures_ofWord_bind (fun freed freedCharge => ?_) fun cause failed =>
    uncounted permits (fun counts => Replication.not_counts_of_charge failed counts.2) cause
  have counts : session.Counts reported options := by
    refine ⟨fun key other same => ?_, (Replication.charge_eq_ok_iff.1 freedCharge).1⟩
    cases built.symm.trans same
    exact (Replication.charge_eq_ok_iff.1 addedCharge).1
  refine stores permits counts _ outcome (added - freed) ⟨?_, built, rfl, ?_⟩
    ⟨added, freed, addedCharge, freedCharge, rfl⟩
  · have wellFormed := prepared.key.replaceLatest committed history version stamped
    refine ⟨{ wellFormed with }, ⟨rfl, rfl, rfl⟩, rfl, ⟨committed, rfl, blocks.symm⟩,
      fun matched id => ?_, fun unchecked => ?_, _, outcome, built, rfl, rfl⟩
    · unfold unreferenced Session.allocated
      rw [matched, KeyRecord.latestBlocks_of_history history, blocks]
      exact accounted matched id
    · obtain ⟨same, none⟩ := verbatim unchecked
      unfold unreferenced
      rw [unchecked, if_pos rfl, none, List.nil_append, blocks, same]
      exact ⟨rfl, rfl⟩
  · rw [history, List.map_append, List.map_append, List.map_singleton, List.map_singleton, version]

/-- A commit has one of the effects above, and succeeds only when all was done. -/
theorem ensures_commitKey (sound : before.records.Sound) (settings : Settings) {session : Session}
    (prepared : session.Sound) (hosts : before.Hosts session) (reported : List Block)
    (size : UInt64) (options : CommitOptions) :
    (commitKey settings session reported size options).Ensures before
      (fun commit after => CommitEffect settings before session reported options (.ok commit) after)
      (fun fault after =>
        CommitEffect settings before session reported options (.error fault) after) := by
  apply ensures_prepared prepared
  · exact fun forbids => .untouched (fun _ _ => .inl forbids) (Idle.refl before).halted.leaves
  · exact fun _ _ cause => .untouched nofun (idle_ticked before).halted.leaves
  · intro _ _ key outcome bytes prepares charged
    have expected : key.expected = session.key.expected := by rw [prepares.fields]
    exact ensures_storeCommit settings (idle_ticked before) sound prepared hosts prepares.commits
      expected rfl charged

end Action

end ObjectLedger
