import ObjectLedger.Proofs.Service.Apart
import ObjectLedger.Proofs.Service.Commit
import ObjectLedger.Proofs.Service.Run
import ObjectLedger.Proofs.Store.Quota

/-! # Quotas are kept

A commit compares its deltas with the quotas of a bucket before it writes its key, and moves the
usage of the bucket afterwards, reading it anew. As operations are carried out one at a time, both
find the same bucket (`Records.Changes`), whatever the store refuses in between. Usage therefore
stays within a quota as long as no sum leaves the word, and a commit is refused for a quota only
if it would leave it (`World.quotaKept_of_exact`).
-/

namespace ObjectLedger

namespace Records

variable {before middle after : Records} {volume name : String} {bytes keys : Int64}
  {enforced : Prop} {created : List BucketRecord}

/-! ## What an operation does to the buckets -/

/-- What an operation does to the stored buckets: nothing, or one is created, or the usage of one
is moved, within its quotas if they are enforced. -/
inductive Changes (enforced : Prop) (before after : Records) : List BucketRecord → Prop
  | kept (same : after.buckets = before.buckets) : Changes enforced before after []
  | created (bucket : BucketRecord) (frame : List UInt8) (wellFormed : bucket.WellFormed)
      (persisted : bucket.persist = .ok frame)
      (free : before.buckets.get? (bucketPath bucket.volume bucket.name) = none)
      (same : after.buckets = (before.putBucket bucket frame).buckets) :
      Changes enforced before after [bucket]
  | charged {charged : Records} {volume name : String} {bytes keys : Int64}
      (moves : before.Moves volume name bytes keys charged)
      (allowed : enforced → before.Allows volume name bytes keys)
      (same : after.buckets = charged.buckets) : Changes enforced before after []

/-- A move of usage that does not grow is allowed. -/
theorem Moves.allows (moves : before.Moves volume name bytes keys after) (bytesShrink : bytes ≤ 0)
    (keysShrink : keys ≤ 0) : before.Allows volume name bytes keys := by
  obtain ⟨home, updateId, time, frame, -, leads, -⟩ := moves
  exact ⟨home, leads, Quota.check_of_nonpos bytesShrink, Quota.check_of_nonpos keysShrink⟩

/-- Every change of the buckets keeps them readable. -/
theorem Changes.sound (changes : before.Changes enforced after created)
    (sound : before.BucketsSound) : after.BucketsSound := by
  cases changes with
  | kept same => exact sound.of_buckets same
  | created bucket frame wellFormed persisted free same =>
      exact (sound.putBucket wellFormed persisted).of_buckets same
  | charged moves allowed same => exact (moves.bucketsSound sound).of_buckets same

/-- The counters of the stored buckets are moved by sums that are words. -/
def Exact (before after : Records) : Prop :=
  ∀ path bucket next, before.bucketAt path = some bucket → after.bucketAt path = some next →
    bucket.ExactTo next

/-- Only what stands under the paths of the store has to be compared. -/
instance (before after : Records) : Decidable (before.Exact after) :=
  decidable_of_iff (∀ entry ∈ before.buckets.entries, ∀ bucket ∈ before.bucketAt entry.1,
    ∀ next ∈ after.bucketAt entry.1, bucket.ExactTo next) <| by
      constructor
      · intro exact path bucket next seen later
        obtain ⟨stored, found, -⟩ := Option.bind_eq_some_iff.1 seen
        exact exact (path, stored) ((before.buckets.mem_entries_iff path stored).2 found) bucket
          seen next later
      · exact fun exact entry _ bucket seen next later => exact entry.1 bucket next seen later

/-- A created bucket stands with its quotas. -/
def KeepsQuotas (records : Records) (first : BucketRecord) : Prop :=
  ∃ bucket, records.Home first.volume first.name bucket ∧ first.KeepsQuotas bucket

/-- Quotas are kept by what passes their checks. -/
theorem Changes.keepsQuotas (changes : before.Changes enforced after created)
    (holds : enforced) (sound : before.BucketsSound) (exact : before.Exact after)
    {first : BucketRecord}
    (keeps : before.KeepsQuotas first) : after.KeepsQuotas first := by
  obtain ⟨bucket, home, quotas⟩ := keeps
  cases changes with
  | kept same => exact ⟨bucket, home.of_buckets same, quotas⟩
  | created other frame wellFormed persisted free same =>
      exact ⟨bucket, (home.putBucket wellFormed persisted free).of_buckets same, quotas⟩
  | charged moves allowed same =>
      obtain ⟨next, stays, moved⟩ := moves.stays sound home
      have there := stays.of_buckets same
      rcases moved with ⟨rfl, -⟩ | ⟨leads, updateId, time, rfl⟩
      · exact ⟨next, there, quotas⟩
      · obtain ⟨found, found', bytesFit, keysFit⟩ := allowed holds
        obtain rfl := Option.some.inj (found'.symm.trans leads)
        exact ⟨_, there, quotas.moved bytesFit keysFit (exact _ _ _ home.seen there.seen)⟩

/-- Growth of the bucket that a name leads to, by the delta of one kind, would leave a quota that
limits, and an error reports all of it. -/
def Forbids (records : Records) (volume name : String) (bytes keys : Int64) (cause : StoreError) :
    Prop :=
  ∃ home kind, records.resolve? volume name = some home ∧
    cause = .record (.quotaExceeded home.name kind (home.used kind) (kind.delta bytes keys)
      (home.quota kind)) ∧
    home.quota kind ≠ Quota.unlimited ∧ 0 < kind.delta bytes keys ∧
    (home.quota kind).toInt < (home.used kind).toInt + (kind.delta bytes keys).toInt

/-- A failed check of a bucket reports what it forbids. -/
theorem forbids_of_check {home : BucketRecord} (leads : before.resolve? volume name = some home)
    {kind : QuotaKind} {cause : RecordError} (failed : Quota.check home.name kind (home.used kind)
      (kind.delta bytes keys) (home.quota kind) = .error cause) :
    before.Forbids volume name bytes keys (.record cause) := by
  obtain ⟨rfl, exceeds⟩ := Quota.exceeds_of_check failed
  exact ⟨home, kind, leads, rfl, exceeds⟩

/-- Whether a quota forbids a change is read off the buckets alone. -/
theorem Forbids.of_buckets {cause : StoreError}
    (forbids : middle.Forbids volume name bytes keys cause)
    (same : middle.buckets = before.buckets) : before.Forbids volume name bytes keys cause := by
  obtain ⟨home, kind, leads, exceeds⟩ := forbids
  exact ⟨home, kind, (resolve?_of_buckets same ..).symm.trans leads, exceeds⟩

/-- Whether the quotas allow a change is read off the buckets alone. -/
theorem Allows.of_buckets (allows : middle.Allows volume name bytes keys)
    (same : middle.buckets = before.buckets) : before.Allows volume name bytes keys := by
  obtain ⟨home, leads, fit⟩ := allows
  exact ⟨home, (resolve?_of_buckets same ..).symm.trans leads, fit⟩

end Records

/-- Taking a report into a key compares nothing with a quota. -/
theorem KeyRecord.commit_plain {key : KeyRecord} {reported : List Block}
    {options : CommitOptions} {cause : RecordError}
    (failed : key.commit reported options = .error cause) :
    ¬ (StoreError.record cause).OfQuota := by
  unfold commit at failed
  split at failed
  · cases failed
    exact id
  · cases failed

/-- A commit is refused for a quota of the bucket of its session. -/
def Session.Exceeds (session : Session) (records : Records) (reported : List Block)
    (options : CommitOptions) (cause : StoreError) : Prop :=
  ∃ key outcome bytes, session.key.commit reported options = .ok (key, outcome) ∧
    session.Charged key outcome.committed bytes ∧
    records.Forbids session.key.volume session.key.bucket bytes session.addedKeys cause

/-- The schedule of outages is the same, and the buckets were changed as by one operation. -/
structure Service.Changes (enforced : Prop) (before after : Service)
    (created : List BucketRecord) : Prop where
  schedule : after.outages.schedule = before.outages.schedule
  records : before.records.Changes enforced after.records created

/-- What keeps the buckets changes none. -/
theorem Service.Apart.changes {before after : Service} (apart : before.Apart True after)
    (enforced : Prop) : before.Changes enforced after [] :=
  ⟨apart.schedule, .kept (apart.buckets trivial)⟩

namespace Action

open Service

variable {before : Service}

/-! ## Commits -/

/-- The check of the quotas fails for a quota only where that quota forbids the change. -/
theorem quota_checkQuota (sound : before.records.BucketsSound) (volume bucket : String)
    (bytes keys : Int64) : (checkQuota volume bucket bytes keys).Ensures before
    (fun _ after => before.Apart True after)
    (fun fault after => before.Apart True after ∧ (fault.Apart before.outages ∨
      ∃ cause, fault = .error cause ∧ before.records.Forbids volume bucket bytes keys cause)) := by
  refine (((ensures_resolveBucket sound volume bucket).and
    (apart_resolveBucket volume bucket before)).mono (fun _ _ known => known)
    fun _ _ known => ⟨known.2.1, .inl known.2.2⟩).bind fun home after known => ?_
  obtain ⟨⟨-, leads, -⟩, apart⟩ := known
  have reports : ∀ (kind : QuotaKind) (cause : RecordError), Quota.check home.name kind
      (home.used kind) (kind.delta bytes keys) (home.quota kind) = .error cause →
      before.records.Forbids volume bucket bytes keys (.record cause) :=
    fun _ _ failed => Records.forbids_of_check leads failed
  refine ensures_ofRecord_bind (fun _ _ => ?_) fun cause failed =>
    ⟨apart, .inr ⟨_, rfl, reports .bytes cause failed⟩⟩
  cases failed : home.checkKeys keys with
  | ok _ => exact apart
  | error cause => exact ⟨apart, .inr ⟨_, rfl, reports .keys cause failed⟩⟩

/-- A key is written apart from the buckets, and fails for a quota only if its bucket forbids
it. -/
theorem quota_writeCommitted (sound : before.records.BucketsSound) (settings : Settings)
    (key : KeyRecord) (bytes keys : Int64) :
    (writeCommitted settings key bytes keys).Ensures before
      (fun written after => before.Apart True after ∧ written.volume = key.volume ∧
        written.bucket = key.bucket ∧
        (settings.enforceQuota = true → before.records.Allows key.volume key.bucket bytes keys))
      (fun fault after => before.Apart True after ∧ (fault.Apart before.outages ∨
        ∃ cause, fault = .error cause ∧
          before.records.Forbids key.volume key.bucket bytes keys cause)) := by
  have written : (do
      let written ← advanced key
      writeKey written (conditionOf key)
      pure written : Action KeyRecord).Apart True :=
    (apart_advanced key).bind fun written => (apart_writeKey written _).bind fun _ =>
      apart_pure written
  have faults : (writeCommitted settings key bytes keys).Ensures before
      (fun _ after => before.Apart True after)
      (fun fault after => before.Apart True after ∧ (fault.Apart before.outages ∨
        ∃ cause, fault = .error cause ∧
          before.records.Forbids key.volume key.bucket bytes keys cause)) := by
    unfold writeCommitted
    split
    · exact (quota_checkQuota sound key.volume key.bucket bytes keys).bind fun _ middle known =>
        (written.after known).mono (fun _ _ apart => apart) fun _ _ known => ⟨known.1, .inl known.2⟩
    · exact (written before).mono (fun _ _ apart => apart) fun _ _ known => ⟨known.1, .inl known.2⟩
  refine ((ensures_writeCommitted sound settings key bytes keys).and faults).mono ?_
    fun _ _ known => known.2
  rintro written after ⟨⟨⟨frame, writes⟩, allowed⟩, apart⟩
  rw [writes.fields]
  exact ⟨apart, rfl, rfl, allowed⟩

/-- A commit that cannot charge its bucket leaves the buckets, and fails as that did or for a
call of its own. -/
theorem quota_undoCommit {start : Service} (apart : start.Apart True before) (enforced : Prop)
    (key : KeyRecord) (previous : Option KeyRecord) (committed leftOver : List Block)
    {cause : StoreError} (plain : (Fault.error cause).Apart start.outages) :
    (do
      match ← attempt (rollBack key previous) with
      | .ok () => deleteBlocks (committed ++ leftOver)
      | .error _ => deleteBlocks leftOver
      fail cause : Action Commit).Ensures before (fun _ after => start.Changes enforced after [])
      (fun fault after => start.Changes enforced after [] ∧ fault.Apart start.outages) := by
  refine (((apart_rollBack key previous).attempt before).mono (fun _ _ tried => tried)
    fun _ _ failed => ⟨(apart.trans failed.1).changes _,
      failed.2.of_schedule apart.schedule⟩).bind fun result last tried => ?_
  have released : ∀ blocks : List Block, (do
      deleteBlocks blocks
      fail cause : Action Commit).Ensures last (fun _ after => start.Changes enforced after [])
      (fun fault after => start.Changes enforced after [] ∧ fault.Apart start.outages) :=
    fun blocks => (((apart_deleteBlocks blocks).after (apart.trans tried.1)).mono
      (fun _ _ later => later) fun _ _ failed => ⟨failed.1.changes _, failed.2⟩).bind
        fun _ _ later => ⟨later.changes _, plain⟩
  cases result with
  | ok _ => exact released _
  | error refusal => exact released _

/-- The part of a commit after its key was written moves the usage of its bucket, or leaves it. -/
theorem quota_chargeCommit (settings : Settings) {start : Service}
    (sound : start.records.BucketsSound) (apart : start.Apart True before) (session : Session)
    (outcome : Reconciliation) (leftOver : List Block) (bytes : Int64) (key : KeyRecord)
    (allowed : settings.enforceQuota = true →
      start.records.Allows key.volume key.bucket bytes session.addedKeys) :
    (chargeCommit settings session outcome leftOver bytes key).Ensures before
      (fun _ after => start.Changes (settings.enforceQuota = true) after [])
      (fun fault after => start.Changes (settings.enforceQuota = true) after [] ∧
        fault.Apart start.outages) := by
  have soundBefore := sound.of_buckets (apart.buckets trivial)
  refine (((ensures_chargeUsage soundBefore settings key.volume key.bucket bytes
    session.addedKeys).and (apart_chargeUsage settings key.volume key.bucket bytes
      session.addedKeys before)).attempted ?_).bind fun result middle known => ?_
  · rintro overflow after ⟨⟨ended, -⟩, -⟩
    exact ⟨(apart.trans ((Ended.halted ended).toStill.apart True)).changes _, nofun⟩
  cases result with
  | error cause =>
      obtain ⟨⟨ended, -⟩, -, plain⟩ := known
      exact quota_undoCommit (apart.trans ((Ended.halted ended).toStill.apart True)) _ key
        session.previous outcome.committed leftOver (plain.of_schedule apart.schedule)
  | ok _ =>
      obtain ⟨⟨records, moves, idle⟩, scheduled⟩ := known
      obtain ⟨charged, moved, same⟩ := moves.of_buckets (apart.buckets trivial).symm
      have changed : ∀ {after : Service}, middle.Apart True after →
          start.Changes (settings.enforceQuota = true) after [] := by
        intro after later
        refine ⟨later.schedule.trans (scheduled.schedule.trans apart.schedule),
          .charged moved allowed ?_⟩
        rw [later.buckets trivial, idle.records, same]
      refine ((apart_deleteBlocks _ middle).mono (fun _ _ later => later) fun _ _ failed =>
        ⟨changed failed.1, failed.2.of_schedule (scheduled.schedule.trans apart.schedule)⟩).bind
        fun _ last later => ensures_pure (changed later)

/-- Where quotas are enforced, a commit charges its bucket within them, and one that fails for a
quota fails for one that forbids it. -/
theorem quota_storeCommit (settings : Settings) {start : Service}
    (sound : start.records.BucketsSound) (apart : start.Apart True before) (session : Session)
    (outcome : Reconciliation) (leftOver : List Block) (bytes : Int64) (key : KeyRecord) :
    (storeCommit settings session outcome leftOver bytes key).Ensures before
      (fun _ after => start.Changes (settings.enforceQuota = true) after [])
      (fun fault after => start.Changes (settings.enforceQuota = true) after [] ∧
        (fault.Apart start.outages ∨ ∃ cause, fault = .error cause ∧
          start.records.Forbids key.volume key.bucket bytes session.addedKeys cause)) := by
  have same := apart.buckets trivial
  have soundBefore := sound.of_buckets same
  refine ((quota_writeCommitted soundBefore settings key bytes session.addedKeys).attempted
    ?_).bind fun result middle known => ?_
  · rintro overflow after ⟨later, -⟩
    exact ⟨(apart.trans later).changes _, .inl nofun⟩
  cases result with
  | error cause =>
      obtain ⟨later, known⟩ := known
      refine (((apart_deleteBlocks _).after (apart.trans later)).mono (fun _ _ last => last)
        fun _ _ failed => ⟨failed.1.changes _, .inl failed.2⟩).bind fun _ _ last =>
          ensures_fail ⟨last.changes _, ?_⟩
      rcases known with plain | ⟨_, ⟨⟩, forbids⟩
      · exact .inl (plain.of_schedule apart.schedule)
      · exact .inr ⟨cause, rfl, forbids.of_buckets same⟩
  | ok written =>
      obtain ⟨later, volume, bucket, allowed⟩ := known
      refine (quota_chargeCommit settings sound (apart.trans later) session outcome leftOver bytes
        written fun enforced => ?_).mono (fun _ _ changes => changes) fun _ _ failed =>
          ⟨failed.1, .inl failed.2⟩
      rw [volume, bucket]
      exact (allowed enforced).of_buckets same

/-- A commit moves the usage of its bucket within the quotas, or leaves it, and is refused for a
quota only if it exceeds it. -/
theorem quota_commitKey (sound : before.records.BucketsSound) (settings : Settings)
    (session : Session) (reported : List Block) (size : UInt64) (options : CommitOptions) :
    (commitKey settings session reported size options).Ensures before
      (fun _ after => before.Changes (settings.enforceQuota = true) after [])
      (fun fault after => before.Changes (settings.enforceQuota = true) after [] ∧
        (fault.Apart before.outages ∨ ∃ cause, fault = .error cause ∧
          session.Exceeds before.records reported options cause)) := by
  have unmoved : before.Changes (settings.enforceQuota = true) before [] :=
    (Apart.refl True before).changes _
  rw [commitKey_eq]
  split
  · exact ensures_fail_bind ⟨unmoved, .inl (Fault.apart_of_not id _)⟩
  refine ensures_ofRecord_bind (fun reconciled built => ?_) fun cause failed =>
    ⟨unmoved, .inl (Fault.apart_of_not (KeyRecord.commit_plain failed) _)⟩
  obtain ⟨key, outcome⟩ := reconciled
  have fields := KeyRecord.eq_of_commit built
  refine ensures_now.bind fun time first idle => ?_
  have ticked : before.Apart True first := idle.toStill.apart True
  have still : before.Changes (settings.enforceQuota = true) first [] := ticked.changes _
  refine ensures_ofWord_bind (fun added addedCharge => ?_) fun _ _ => ⟨still, .inl nofun⟩
  refine ensures_ofWord_bind (fun freed freedCharge => ?_) fun _ _ => ⟨still, .inl nofun⟩
  have charged : session.Charged key outcome.committed (added - freed) := by
    refine ⟨added, freed, addedCharge, ?_, rfl⟩
    rw [fields] at freedCharge
    cases previous : session.previous with
    | none => rw [previous] at freedCharge; exact freedCharge
    | some old => rw [previous] at freedCharge; exact freedCharge
  refine (quota_storeCommit settings sound ticked session outcome _ (added - freed) _).mono
    (fun _ _ changes => changes) ?_
  rintro fault after ⟨changes, plain | ⟨cause, rfl, forbids⟩⟩
  · exact ⟨changes, .inl plain⟩
  · refine ⟨changes, .inr ⟨cause, rfl, key, outcome, _, built, charged, ?_⟩⟩
    rw [fields] at forbids
    exact forbids

/-- A deletion takes from the usage of a bucket, or leaves it. -/
theorem changes_deleteKeyOf (sound : before.records.BucketsSound) (settings : Settings)
    (enforced : Prop) (volume bucket name : String) :
    (deleteKeyOf settings volume bucket name).Ensures before
      (fun _ after => before.Changes enforced after [])
      (fun _ after => before.Changes enforced after []) := by
  refine ((apart_resolveBucket volume bucket before).mono (fun _ _ known => known)
    fun _ _ known => known.1.changes _).bind fun home first known => ?_
  refine (((apart_deleteKey _ _ _ _).after known).mono (fun _ _ known => known)
    fun _ _ known => known.1.changes _).bind fun removed second apart => ?_
  cases removed with
  | none => exact ensures_fail (apart.changes _)
  | some record =>
      refine ensures_ofWord_bind (fun freed charge => ?_) fun _ _ => apart.changes _
      have soundSecond := sound.of_buckets (apart.buckets trivial)
      refine ((ensures_chargeUsage soundSecond settings home.volume home.name (-freed) (-1)).mono
        (fun _ _ known => known) fun _ _ known =>
          (apart.trans ((Ended.halted known.1).toStill.apart True)).changes _).bind
        fun _ third known => ?_
      obtain ⟨records, moves, idle⟩ := known
      obtain ⟨charged, moved, same⟩ := moves.of_buckets (apart.buckets trivial).symm
      have changed : ∀ {after : Service}, third.Apart True after →
          before.Changes enforced after [] := by
        intro after later
        refine ⟨later.schedule.trans (idle.schedule.trans apart.schedule), .charged moved
          (fun _ => moved.allows (Replication.neg_charge_nonpos charge) (by decide)) ?_⟩
        rw [later.buckets trivial, idle.records, same]
      exact ((apart_deleteBlocks _ third).mono (fun _ _ later => later)
        fun _ _ failed => changed failed.1).bind fun _ last later => ensures_pure (changed later)

end Action

namespace World

variable {settings : Settings} {world : World} {operations : List Operation}

/-- Every operation changes the buckets as said, whatever is refused. -/
theorem changes_perform (sound : world.service.records.BucketsSound) (settings : Settings)
    (operation : Operation) :
    world.service.Changes (settings.enforceQuota = true) (world.after settings operation).service
      (world.perform settings operation).1.buckets := by
  unfold after
  cases operation with
  | createBucket draft =>
      have ensured := Action.ensures_createBucket world.service draft
      rw [perform]
      rcases ran : (Action.createBucket draft).exec world.service with ⟨fault | bucket, service⟩
      · have leaves := ensured.of_exec_error ran
        exact ⟨leaves.schedule, .kept (congrArg _ leaves.records)⟩
      · obtain ⟨wellFormed, -, -, frame, persisted, free, leaves⟩ := ensured.of_exec_ok ran
        exact ⟨leaves.schedule, .created bucket frame wellFormed persisted free
          (congrArg _ leaves.records)⟩
  | openKey request =>
      have apart : (Action.openKey settings request).Apart True :=
        Action.apart_openKey settings request
      have ensured := apart world.service
      rw [perform]
      rcases ran : (Action.openKey settings request).exec world.service with
        ⟨fault | session, service⟩
      · exact (ensured.of_exec_error ran).1.changes _
      · exact (ensured.of_exec_ok ran).changes _
  | allocateBlock place =>
      rw [perform]
      cases world.sessionAt place with
      | none => exact (Service.Apart.refl True _).changes _
      | some session =>
          have apart : (Action.allocateBlock settings session).Apart True :=
            Action.apart_allocateBlock settings session
          have ensured := apart world.service
          dsimp only
          rcases ran : (Action.allocateBlock settings session).exec world.service with
            ⟨fault | ⟨block, next⟩, service⟩
          · exact (ensured.of_exec_error ran).1.changes _
          · exact (ensured.of_exec_ok ran).changes _
  | commitKey place reported size options =>
      rw [perform]
      cases world.sessionAt place with
      | none => exact (Service.Apart.refl True _).changes _
      | some session =>
          have ensured := Action.quota_commitKey sound settings session reported size options
          dsimp only
          rcases ran : (Action.commitKey settings session reported size options).exec
            world.service with ⟨fault | commit, service⟩
          · exact (ensured.of_exec_error ran).1
          · exact ensured.of_exec_ok ran
  | deleteKey volume bucket key =>
      have ensured := Action.changes_deleteKeyOf sound settings (settings.enforceQuota = true)
        volume bucket key
      rw [perform]
      rcases ran : (Action.deleteKeyOf settings volume bucket key).exec world.service with
        ⟨fault | record, service⟩
      · exact ensured.of_exec_error ran
      · exact ensured.of_exec_ok ran

/-- The buckets are sound at every moment of a run, and the schedule stays. -/
theorem bucketsSound_moment (sound : world.service.records.BucketsSound) (count : Nat) :
    (world.moment settings operations count).service.records.BucketsSound ∧
      (world.moment settings operations count).service.outages.schedule =
        world.service.outages.schedule := by
  apply moment_induction (fun now => now.service.records.BucketsSound ∧
    now.service.outages.schedule = world.service.outages.schedule) (Nat.zero_le count)
    ⟨sound, rfl⟩
  intro count operation _ next here
  rw [moment_succ_of_getElem? next]
  have changes := changes_perform here.1 settings operation
  exact ⟨changes.records.sound here.1, changes.schedule.trans here.2⟩

/-- A service that refuses no call refuses none after a run. -/
theorem silent_run (sound : world.service.records.BucketsSound)
    (silent : world.service.outages.Silent) :
    (world.run settings operations).service.outages.Silent := by
  rw [← moment_length]
  exact silent.of_schedule (bucketsSound_moment sound _).2

/-- Quotas of created buckets are kept by an operation under a settings that enforce them. -/
theorem keepsQuotas_perform (sound : world.service.records.BucketsSound)
    (enforces : settings.enforceQuota = true) {operation : Operation}
    (exact : world.service.records.Exact (world.after settings operation).service.records)
    {created : List BucketRecord}
    (keeps : ∀ first ∈ created, first.source? = none → world.service.records.KeepsQuotas first) :
    ∀ first ∈ created ++ (world.perform settings operation).1.buckets, first.source? = none →
      (world.after settings operation).service.records.KeepsQuotas first := by
  intro first member source
  have changes := (changes_perform sound settings operation).records
  rcases List.mem_append.1 member with old | new
  · exact changes.keepsQuotas enforces sound exact (keeps first old source)
  · generalize (world.perform settings operation).1.buckets = buckets at changes new
    cases changes with
    | kept => cases new
    | charged => cases new
    | created bucket frame wellFormed persisted free same =>
        obtain rfl := List.mem_singleton.1 new
        refine ⟨first, (Records.home_putBucket wellFormed persisted source).of_buckets same, ?_⟩
        exact fun kind => ⟨rfl, fun _ within => within⟩

/-- A commit of a session that is refused for a quota exceeds it, unless a call was refused with
that report. -/
theorem exceeds_of_refused (sound : world.service.records.BucketsSound) {place : Nat}
    {reported : List Block} {size : UInt64} {options : CommitOptions} {cause : StoreError}
    (refused : (world.perform settings (.commitKey place reported size options)).1 =
      .failed (.error cause)) (ofQuota : cause.OfQuota)
    (own : ¬ world.service.outages.Injects cause) :
    ∃ session, world.sessionAt place = some session ∧
      session.Exceeds world.service.records reported options cause := by
  rw [perform] at refused
  cases found : world.sessionAt place with
  | none => rw [found] at refused; cases refused
  | some session =>
      have ensured := Action.quota_commitKey sound settings session reported size options
      rw [found] at refused
      dsimp only at refused
      rcases ran : (Action.commitKey settings session reported size options).exec
        world.service with ⟨fault | commit, service⟩
      · rw [ran] at refused
        cases refused
        refine ⟨session, rfl, ?_⟩
        rcases (ensured.of_exec_error ran).2 with plain | ⟨_, ⟨⟩, exceeds⟩
        · exact (own (plain cause rfl ofQuota)).elim
        · exact exceeds
      · rw [ran] at refused
        cases refused

/-- Under enforced quotas, a created bucket that is no link stays at every moment of every run
within each quota that it was within at its creation, whatever is refused and however writers are
interleaved, as long as the counters are moved by sums that are words. A commit at such a moment is
refused for a quota only if it exceeds it. -/
theorem quotaKept_of_exact {settings : Settings} (enforces : settings.enforceQuota = true)
    (allocator : Allocator) (clock : Clock) (outages : Outages) (operations : List Operation)
    (exact : ∀ count < operations.length,
      ((start allocator clock outages).moment settings operations count).service.records.Exact
        ((start allocator clock outages).moment settings operations (count + 1)).service.records)
    (count : Nat) :
    (∀ first ∈ ((start allocator clock outages).outcomes settings
      (operations.take count)).flatMap Outcome.buckets, first.source? = none →
        ((start allocator clock outages).moment settings operations
          count).service.records.KeepsQuotas first) ∧
    ∀ place reported size options cause,
      (((start allocator clock outages).moment settings operations count).perform settings
        (.commitKey place reported size options)).1 = .failed (.error cause) →
      cause.OfQuota → ¬ outages.Injects cause →
      ∃ session,
        ((start allocator clock outages).moment settings operations count).sessionAt place =
          some session ∧
        session.Exceeds ((start allocator clock outages).moment settings operations
          count).service.records reported options cause := by
  have empty : (start allocator clock outages).service.records.BucketsSound :=
    Records.sound_empty.toBucketsSound
  have always := @bucketsSound_moment settings _ operations empty
  constructor
  · induction count with
    | zero =>
        rintro first member
        cases member
    | succ count ih =>
        cases next : operations[count]? with
        | none =>
            rw [moment_succ_of_none next, List.take_add_one, next, Option.toList_none,
              List.append_nil]
            exact ih
        | some operation =>
            have stays := exact count (List.getElem?_eq_some_iff.1 next).1
            rw [moment_succ_of_getElem? next] at stays ⊢
            rw [outcomes_take_succ next, List.flatMap_append, List.flatMap_singleton]
            exact keepsQuotas_perform (always count).1 enforces stays ih
  · intro place reported size options cause refused ofQuota own
    refine exceeds_of_refused (always count).1 refused ofQuota ?_
    rintro ⟨method, call, injected⟩
    exact own ⟨method, call, (always count).2 ▸ injected⟩

/-- A service whose first update of a bucket meets a conflict. -/
def raced : World :=
  start calm.service.allocator calm.service.clock
    (Outages.never.during .writeBucket 0 1 (.fail (.concurrent "/v/b" none none)))

/-- A bucket that holds 40 bytes is filled by two commits to one key with three copies. -/
def filling : List Operation :=
  let request : OpenRequest := { volume := "v", bucket := "b", key := "k" }
  [.createBucket { volume := some "v", name := some "b", medium := some .disk, quotaBytes := 40 },
    .openKey request, .commitKey 0 [{ Block.bare ⟨1, 1⟩ with length := 10 }] 10 {},
    .openKey request, .commitKey 1 [{ Block.bare ⟨1, 2⟩ with length := 11 }] 11 {},
    .openKey { request with key := "j" }]

set_option maxRecDepth 20000 in
/-- A commit of nine more bytes is refused, and the bucket stays within its quota. -/
theorem quotaKept_filling :
    (∀ count < filling.length, (raced.moment {} filling count).service.records.Exact
      (raced.moment {} filling (count + 1)).service.records) ∧
    (∃ first ∈ (raced.outcomes {} (filling.take 6)).flatMap Outcome.buckets,
      first.source? = none ∧ first.quotaBytes = 40 ∧
        (raced.moment {} filling 6).service.records.KeepsQuotas first) ∧
    ∃ session, (raced.moment {} filling 6).sessionAt 2 = some session ∧
      session.Exceeds (raced.moment {} filling 6).service.records
        [{ Block.bare ⟨1, 3⟩ with length := 3 }] {}
        (.record (.quotaExceeded "b" .bytes 33 9 40)) := by
  have runs : (∀ count < filling.length, (raced.moment {} filling count).service.records.Exact
        (raced.moment {} filling (count + 1)).service.records) ∧
      (∃ first ∈ (raced.outcomes {} (filling.take 6)).flatMap Outcome.buckets,
        first.source? = none ∧ first.quotaBytes = 40) ∧
      ((raced.moment {} filling 6).perform {}
        (.commitKey 2 [{ Block.bare ⟨1, 3⟩ with length := 3 }] 3 {})).1 =
          .failed (.error (.record (.quotaExceeded "b" .bytes 33 9 40))) := by
    decide +kernel
  -- The world is not to be computed again below.
  unfold raced at runs ⊢
  obtain ⟨exact, ⟨first, member, source, quota⟩, refused⟩ := runs
  have own : ¬ (Outages.never.during .writeBucket 0 1
      (.fail (.concurrent "/v/b" none none))).Injects
        (.record (.quotaExceeded "b" .bytes 33 9 40)) := by
    rintro ⟨method, call, injected⟩
    unfold Outages.during Outages.never at injected
    dsimp only at injected
    split at injected
    · cases injected
    · split at injected <;> cases injected
  obtain ⟨kept, exceeds⟩ := quotaKept_of_exact rfl calm.service.allocator calm.service.clock
    (Outages.never.during .writeBucket 0 1 (.fail (.concurrent "/v/b" none none))) filling exact 6
  exact ⟨exact, ⟨first, member, source, quota, kept first member source⟩,
    exceeds 2 _ 3 {} _ refused trivial own⟩

end World

end ObjectLedger
