import ObjectLedger.Proofs.Service.Formed

/-! # Keys are removed as a whole, or not

A deletion changes the key, then the usage of its bucket, then the live blocks. Nothing undoes
the first of these changes when a later one cannot be made. A deletion is therefore all or
nothing only as long as none of the calls that it makes after the removal is refused
(`World.removedWhole_of_spared`); where the bucket cannot be written, the key is gone while
its usage and its blocks remain (`World.removal_without_release`).
-/

namespace ObjectLedger

/-- The record under a name was removed, and every other key stays. -/
structure Records.Removes (before after : Records) (volume bucket name : String)
    (record : KeyRecord) : Prop where
  stood : ∀ time, before.readKey time volume bucket name = .ok (some record)
  gone : ∀ time, after.readKey time volume bucket name = .ok none
  others : ∀ path, path ≠ keyPath volume bucket name →
    after.keys.get? path = before.keys.get? path

/-- A store whose keys are those without one has that key removed. -/
theorem Records.removes_dropKey {before after : Records} (sound : before.Sound)
    (soundAfter : after.Sound) {volume bucket name : String} {record : KeyRecord}
    (seen : before.keyAt (keyPath volume bucket name) = some record)
    (same : after.keys = (before.dropKey (keyPath volume bucket name)).keys) :
    before.Removes after volume bucket name record where
  stood time := (sound.readKey time ..).trans (congrArg _ seen)
  gone time := by
    rw [soundAfter.readKey, keyAt, same]
    exact congrArg _ ((keyAt_dropKey ..).trans (if_pos rfl))
  others path other := by
    rw [same]
    exact (Dictionary.get?_erase ..).trans (if_neg other)

namespace Service

/-- A bucket that a name leads to lost a key. -/
structure Removed (before after : Service) (volume bucket name : String) (home : BucketRecord)
    (record : KeyRecord) : Prop where
  leads : before.records.resolve? volume bucket = some home
  removes : before.records.Removes after.records home.volume home.name name record

/-- The usage of a bucket was released for a record: the bytes that its blocks are charged for,
and one key. -/
def Released (before after : Service) (home : BucketRecord) (record : KeyRecord) : Prop :=
  ∃ freed, record.replication.charge record.allBlocks = .ok freed ∧
    before.records.Recounts after.records home (-freed) (-1)

/-- A read of a bucket beyond those that a name is followed by, or a write of one, was made and
refused. -/
def ReleaseRefused (before after : Service) (volume bucket : String) : Prop :=
  before.RefusedBucketFrom after
    (before.outages.calls .readBucket + before.records.reads volume bucket)
    (before.outages.calls .writeBucket)

/-- All that was stored and all blocks are as they were. -/
def Untouched (before after : Service) : Prop :=
  after.records = before.records ∧ after.allocator = before.allocator

/-- Usage that is moved by what a record is charged for is released, over any keys. -/
theorem released_of_moves {before after : Service} (sound : before.records.Sound)
    {home : BucketRecord} (stands : before.records.Home home.volume home.name home)
    {record : KeyRecord} {freed : Int64}
    (charge : record.replication.charge record.allBlocks = .ok freed) {middle : Records}
    (moves : middle.Moves home.volume home.name (-freed) (-1) after.records)
    (same : middle.buckets = before.records.buckets) : before.Released after home record := by
  obtain ⟨target, leads, recounts⟩ := moves.recounts sound.toBucketsSound same
  obtain rfl := Option.some.inj (stands.resolve.symm.trans leads)
  exact ⟨freed, charge, recounts⟩

end Service

/-- What is left of a key after its deletion, by the answer. -/
theorem Action.DeleteEffect.traced {before after : Service} {volume bucket name : String}
    {result : Except Fault KeyRecord}
    (effect : DeleteEffect before volume bucket name result after)
    (sound : before.records.Sound) :
    match result with
    | .ok key => ∃ home record, key = { record with encryption := none } ∧
        before.Removed after volume bucket name home record ∧ before.Released after home record ∧
        ∀ block ∈ record.allBlocks, block.id ∉ after.allocator.live
    | .error fault => before.Untouched after ∨ ∃ home record,
        before.Removed after volume bucket name home record ∧
        after.allocator = before.allocator ∧
        (after.records.buckets = before.records.buckets ∧
            (∀ cause, fault = .error cause → before.ReleaseRefused after volume bucket) ∨
          before.Released after home record ∧ before.RefusedNext after .deleteBlocks) := by
  have soundAfter := effect.sound sound
  cases effect with
  | untouched leaves => exact .inl ⟨leaves.records, leaves.allocator⟩
  | @dropped _ _ home record stands seen reason leaves leads =>
      have removed : before.Removed after volume bucket name home record :=
        ⟨leads, Records.removes_dropKey sound soundAfter seen (by rw [leaves.records])⟩
      have buckets : after.records.buckets = before.records.buckets := by
        rw [leaves.records]
        rfl
      exact .inr ⟨home, record, removed, leaves.allocator, .inl ⟨buckets, reason⟩⟩
  | @settled _ _ home record freed _ _ stands seen charge moves ended leaves leads =>
      have removed : before.Removed after volume bucket name home record :=
        ⟨leads, Records.removes_dropKey sound soundAfter seen
          (by rw [leaves.records, moves.keys_eq])⟩
      rw [← leaves.records] at moves
      have released : before.Released after home record :=
        Service.released_of_moves sound stands charge moves rfl
      rcases ended with ⟨rfl, handed⟩ | ⟨⟨fault, rfl⟩, kept, refused⟩
      · refine ⟨home, record, rfl, removed, released, fun block member => ?_⟩
        rw [leaves.allocator, handed]
        exact before.allocator.notMem_live_of_delete member
      · exact .inr ⟨home, record, removed, leaves.allocator.trans kept, .inr ⟨released, refused⟩⟩

namespace World

/-- A deletion in a reachable state that succeeds removes the key that its name leads to,
releases its usage, and leaves none of its blocks live. One that fails leaves the records and
the allocator as they were, unless a call after the removal was refused or a sum overflows: then
the key is gone, its blocks remain, and its usage is released only where the blocks were asked
back. A deletion that made no such call that was refused, and that does not overflow, is all or
nothing, and one of which no call was refused deletes every stored key. -/
theorem removedWhole_of_spared (settings : Settings) (allocator : Allocator) (clock : Clock)
    {outages : Outages} (faithful : outages.Faithful) (operations : List Operation)
    {world after : World} {outcome : Outcome}
    (reached : world = (start allocator clock outages).run settings operations)
    {volume bucket name : String}
    (deletes : world.perform settings (.deleteKey volume bucket name) = (outcome, after)) :
    (∀ key, outcome = .keyDeleted key → ∃ home record,
      key = { record with encryption := none } ∧
      world.service.Removed after.service volume bucket name home record ∧
      world.service.Released after.service home record ∧
      ∀ block ∈ record.allBlocks, block.id ∉ after.service.allocator.live) ∧
    (∀ fault, outcome = .failed fault → world.service.Untouched after.service ∨
      ∃ home record, world.service.Removed after.service volume bucket name home record ∧
      after.service.allocator = world.service.allocator ∧
      (after.service.records.buckets = world.service.records.buckets ∧
          (∀ cause, fault = .error cause →
            world.service.ReleaseRefused after.service volume bucket) ∨
        world.service.Released after.service home record ∧
          world.service.RefusedNext after.service .deleteBlocks)) ∧
    (¬ world.service.ReleaseRefused after.service volume bucket →
      ¬ world.service.RefusedNext after.service .deleteBlocks → outcome.overflows = false →
      (∃ key, outcome = .keyDeleted key) ∨ world.service.Untouched after.service) ∧
    (∀ home record time, world.service.records.resolve? volume bucket = some home →
      world.service.records.readKey time home.volume home.name name = .ok (some record) →
      ¬ world.service.RefusedBucket after.service →
      ¬ world.service.RefusedNext after.service .deleteKey →
      ¬ world.service.RefusedNext after.service .deleteBlocks → outcome.overflows = false →
      outcome = .keyDeleted { record with encryption := none }) := by
  have formed : world.Formed := by
    rw [reached, ← moment_length]
    exact (formed_start allocator clock faithful).moment _
  have sound := formed.records
  obtain ⟨result, service, ran, effect⟩ := perform_deleteKey sound settings volume bucket name
  rw [ran] at deletes
  cases deletes
  have traced := effect.traced sound
  refine ⟨fun key same => ?_, fun fault same => ?_, fun spared releases fits => ?_,
    fun home record time leads reads reaches removes releases fits => ?_⟩
  · cases result with
    | ok record => cases same; exact traced
    | error fault => cases same
  · cases result with
    | ok record => cases same
    | error fault => cases same; exact traced
  · cases result with
    | ok record => exact .inl ⟨record, rfl⟩
    | error fault =>
        rcases traced with untouched | ⟨home, record, -, -, ⟨-, reason⟩ | ⟨-, refused⟩⟩
        · exact .inr untouched
        · cases fault with
          | error cause => exact (spared (reason cause rfl)).elim
          | overflow cause => cases fits
        · exact (releases refused).elim
  · rw [sound.readKey] at reads
    have seen := Except.ok.inj reads
    rw [effect.deleted leads seen reaches removes releases fun cause same => ?_]
    · rfl
    · rw [same] at fits
      cases fits

/-- A bucket in which a key with one block is stored. -/
def storing : List Operation := twoWriters.take 2 ++ [storeBlock]

/-- A service whose second update of a bucket is refused. -/
def unreleasable : World :=
  start calm.service.allocator calm.service.clock
    (Outages.never.during .writeBucket 1 1 (.fail .file))

/-- A service that refuses to update buckets, but only after two times. -/
def releasable : World :=
  start calm.service.allocator calm.service.clock
    (Outages.never.during .writeBucket 2 9 (.fail .file))

set_option maxRecDepth 20000 in
/-- A stored key is removed as a whole where the bucket is written once more, and in part where it
cannot be written. -/
theorem removedWhole_of_storing :
    (∃ home record,
      ((releasable.run {} storing).perform {} (.deleteKey "v" "b" "k")).1 =
        .keyDeleted { record with encryption := none } ∧
      (releasable.run {} storing).service.Removed
        ((releasable.run {} storing).after {} (.deleteKey "v" "b" "k")).service "v" "b" "k" home
          record ∧
      (releasable.run {} storing).service.Released
        ((releasable.run {} storing).after {} (.deleteKey "v" "b" "k")).service home record) ∧
    ∃ home record, (unreleasable.run {} storing).service.Removed
      ((unreleasable.run {} storing).after {} (.deleteKey "v" "b" "k")).service "v" "b" "k" home
        record := by
  have wholeRuns : releasable.Throughout {} Counting storing ∧
      ((releasable.run {} storing).perform {} (.deleteKey "v" "b" "k")).1.overflows = false ∧
      ((releasable.run {} storing).after {} (.deleteKey "v" "b" "k")).service.records ≠
        (releasable.run {} storing).service.records ∧
      ((releasable.run {} storing).after {}
        (.deleteKey "v" "b" "k")).service.outages.calls .writeBucket = 2 := by
    decide +kernel
  have partlyRuns :
      ((unreleasable.run {} storing).perform {} (.deleteKey "v" "b" "k")).1 =
        .failed (.error .file) ∧
      ((unreleasable.run {} storing).after {} (.deleteKey "v" "b" "k")).service.records ≠
        (unreleasable.run {} storing).service.records := by
    decide +kernel
  have faithful : releasable.service.outages.Faithful := fun call same => by cases same
  have partlyFaithful : unreleasable.service.outages.Faithful := fun call same => by cases same
  obtain ⟨counting, fits, changed, writes⟩ := wholeRuns
  have wholeReached : releasable.run {} storing = (start calm.service.allocator calm.service.clock
      releasable.service.outages).run {} storing := by
    unfold releasable
    rfl
  have partlyReached : unreleasable.run {} storing = (start calm.service.allocator
      calm.service.clock unreleasable.service.outages).run {} storing := by
    unfold unreleasable
    rfl
  -- The worlds are not to be computed again below.
  generalize releasable.run {} storing = world at *
  generalize unreleasable.run {} storing = partly at *
  obtain ⟨succeeds, -, whole, -⟩ := removedWhole_of_spared {} _ _ faithful storing wholeReached
    (Prod.eta (world.perform {} (.deleteKey "v" "b" "k"))).symm
  obtain ⟨-, fails, -, -⟩ := removedWhole_of_spared {} _ _ partlyFaithful storing partlyReached
    (Prod.eta (partly.perform {} (.deleteKey "v" "b" "k"))).symm
  have planned : releasable.service.outages = Outages.never.during .writeBucket 2 9 (.fail .file) :=
    rfl
  have schedule : world.service.outages.schedule =
      (Outages.never.during .writeBucket 2 9 (.fail .file)).schedule :=
    planned ▸ (sound_of_reached faithful counting wholeReached).2
  have passes : ∀ method, method ≠ .writeBucket →
      ∀ call, ¬ world.service.outages.Refuses method call :=
    fun method other call refused =>
      Outages.silent_never _ _ (Outages.refuses_during (refused.of_schedule schedule) other)
  have spared : ¬ world.service.ReleaseRefused
      (world.after {} (.deleteKey "v" "b" "k")).service "v" "b" := by
    rintro (⟨call, -, refused, -⟩ | ⟨call, -, ⟨cause, refused⟩, made⟩)
    · exact passes .readBucket (by decide) call refused
    · rw [schedule] at refused
      -- The deletion makes the second write of the bucket, and the third one is refused.
      have early : ¬ (2 ≤ call ∧ call < 2 + 9) := by omega
      exact nomatch refused.symm.trans (if_neg early)
  constructor
  · rcases whole spared (fun refused => passes .deleteBlocks (by decide) _ refused.1) fits with
      ⟨key, deleted⟩ | untouched
    · obtain ⟨home, record, rfl, removed, released, -⟩ := succeeds key deleted
      exact ⟨home, record, deleted, removed, released⟩
    · exact (changed untouched.1).elim
  · rcases fails _ partlyRuns.1 with untouched | ⟨home, record, removed, -⟩
    · exact (partlyRuns.2 untouched.1).elim
    · exact ⟨home, record, removed⟩

set_option maxRecDepth 20000 in
/-- A deletion fails, and the key is gone while its usage and its block remain. -/
theorem removal_without_release :
    ((unreleasable.run {} storing).perform {} (.deleteKey "v" "b" "k")).1 =
      .failed (.error .file) ∧
    (unreleasable.run {} storing).service.records.keys.contains "/v/b/k" ∧
    ((unreleasable.run {} storing).after {}
      (.deleteKey "v" "b" "k")).service.records.keys.contains "/v/b/k" = false ∧
    (((unreleasable.run {} storing).after {}
      (.deleteKey "v" "b" "k")).service.records.bucketAt "/v/b").map
        (fun bucket => (bucket.usedBytes, bucket.usedKeys)) = some (30, 1) ∧
    ((unreleasable.run {} storing).after {}
      (.deleteKey "v" "b" "k")).service.allocator.isLive ⟨1, 1⟩ = true := by
  decide +kernel

end World

end ObjectLedger
