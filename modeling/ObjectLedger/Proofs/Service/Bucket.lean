import ObjectLedger.Proofs.Key.Draft
import ObjectLedger.Proofs.Service.Call
import ObjectLedger.Service.Bucket

/-! # What happens to buckets

A name leads to a bucket that is no link (`Action.ensures_resolveBucket`). Moving the usage of a
bucket changes its counters by the deltas, once, or changes nothing
(`Action.ensures_chargeUsage`); as long as the bucket is there and the store takes every call,
it changes them.
-/

namespace ObjectLedger

namespace Records

/-- A bucket that is no link stands under its own name. -/
structure Home (records : Records) (volume name : String) (bucket : BucketRecord) : Prop where
  seen : records.bucketAt (bucketPath volume name) = some bucket
  volume : bucket.volume = volume
  name : bucket.name = name
  source : bucket.source? = none

/-- The bucket that a name leads to: the one of that name, or the one that a link of that name
names, which may not be a link. -/
def resolve? (records : Records) (volume name : String) : Option BucketRecord :=
  (records.bucketAt (bucketPath volume name)).bind fun record =>
    match record.source? with
    | none => some record
    | some (sourceVolume, sourceBucket) =>
      (records.bucketAt (bucketPath sourceVolume sourceBucket)).filter (!·.isLink)

/-- The number of buckets that are read to follow a name. -/
def reads (records : Records) (volume name : String) : Nat :=
  if ((records.bucketAt (bucketPath volume name)).bind (·.source?)).isSome then 2 else 1

/-- The counters of the bucket that a name leads to were moved by deltas. -/
inductive Moves (before : Records) (volume name : String) (bytes keys : Int64) : Records → Prop
  | intro (home : BucketRecord) (updateId time : UInt64) (frame : List UInt8)
      (stands : before.Home home.volume home.name home)
      (leads : before.resolve? volume name = some home)
      (persisted : (home.moved bytes keys updateId time).persist = .ok frame) :
      Moves before volume name bytes keys
        (before.putBucket (home.moved bytes keys updateId time) frame)

variable {before after : Records} {volume name : String} {bytes keys : Int64}

/-- Moving the usage of a bucket changes no key. -/
theorem Moves.keys_eq (moves : before.Moves volume name bytes keys after) :
    after.keys = before.keys := by
  cases moves
  rfl

theorem Moves.keyAt_eq (moves : before.Moves volume name bytes keys after) (path : String) :
    after.keyAt path = before.keyAt path := by
  cases moves
  rfl

/-! ### What is seen of the buckets alone -/

theorem bucketAt_of_buckets (same : after.buckets = before.buckets) (path : String) :
    after.bucketAt path = before.bucketAt path := by
  rw [bucketAt, bucketAt, same]

theorem resolve?_of_buckets (same : after.buckets = before.buckets) (volume name : String) :
    after.resolve? volume name = before.resolve? volume name := by
  unfold resolve?
  simp only [bucketAt_of_buckets same]

theorem Home.of_buckets {bucket : BucketRecord} (home : before.Home volume name bucket)
    (same : after.buckets = before.buckets) : after.Home volume name bucket :=
  ⟨(bucketAt_of_buckets same _).trans home.seen, home.volume, home.name, home.source⟩

/-- Buckets that are kept stay readable. -/
theorem BucketsSound.of_buckets (sound : before.BucketsSound)
    (same : after.buckets = before.buckets) : after.BucketsSound :=
  ⟨fun path stored found => sound.buckets path stored (same ▸ found)⟩

/-- A move of usage can be made over any keys. -/
theorem Moves.of_buckets {other : Records} (moves : before.Moves volume name bytes keys after)
    (same : other.buckets = before.buckets) :
    ∃ records, other.Moves volume name bytes keys records ∧ records.buckets = after.buckets := by
  obtain ⟨home, updateId, time, frame, stands, leads, persisted⟩ := moves
  refine ⟨_, .intro home updateId time frame (stands.of_buckets same)
    ((resolve?_of_buckets same ..).trans leads) persisted, ?_⟩
  unfold putBucket
  rw [same]

/-- A bucket that is no link is led to by its name. -/
theorem Home.resolve {bucket : BucketRecord} (home : before.Home volume name bucket) :
    before.resolve? volume name = some bucket := by
  unfold resolve?
  rw [home.seen, Option.bind_some, home.source]

/-- A name leads to a bucket that is no link. -/
theorem BucketsSound.home_of_resolve (sound : before.BucketsSound) {bucket : BucketRecord}
    (leads : before.resolve? volume name = some bucket) :
    before.Home bucket.volume bucket.name bucket := by
  have ownPath : ∀ {path record}, before.bucketAt path = some record →
      before.bucketAt (bucketPath record.volume record.name) = some record := by
    intro path record seen
    obtain ⟨stored, -, holds⟩ := sound.stored_of_bucketAt seen
    rw [← holds.path, seen]
  obtain ⟨record, seen, next⟩ := Option.bind_eq_some_iff.1 leads
  cases source : record.source? with
  | none =>
      rw [source] at next
      cases next
      exact ⟨ownPath seen, rfl, rfl, source⟩
  | some target =>
      rw [source] at next
      obtain ⟨there, plain⟩ := Option.filter_eq_some_iff.1 next
      rw [BucketRecord.isLink] at plain
      exact ⟨ownPath there, rfl, rfl, Option.isNone_iff_eq_none.1 (by simpa using plain)⟩

/-- A bucket that is read from its frame is well formed. -/
theorem Home.wellFormed {bucket : BucketRecord} (home : before.Home volume name bucket)
    (sound : before.BucketsSound) : bucket.WellFormed := by
  obtain ⟨stored, -, holds⟩ := sound.stored_of_bucketAt home.seen
  exact holds.wellFormed

/-- Removing a key keeps every bucket. -/
theorem Home.dropKey {bucket : BucketRecord} (home : before.Home volume name bucket)
    (path : String) : (before.dropKey path).Home volume name bucket :=
  ⟨home.seen, home.volume, home.name, home.source⟩

/-- Moving the usage of a bucket keeps the buckets readable. -/
theorem Moves.bucketsSound (moves : before.Moves volume name bytes keys after)
    (sound : before.BucketsSound) : after.BucketsSound := by
  obtain ⟨home, updateId, time, frame, stands, -, persisted⟩ := moves
  exact sound.putBucket ((stands.wellFormed sound).moved ..) persisted

/-- Moving the usage of a bucket keeps the store sound. -/
theorem Moves.sound (moves : before.Moves volume name bytes keys after) (sound : before.Sound) :
    after.Sound where
  toBucketsSound := moves.bucketsSound sound.toBucketsSound
  keys := moves.keys_eq ▸ sound.keys

/-- A home can be written back with its counters moved, if nothing else was written in between. -/
theorem Home.writeBucket {home : BucketRecord} (stands : before.Home home.volume home.name home)
    (sound : before.BucketsSound) (bytes keys : Int64) (updateId time : UInt64) :
    ∃ frame, (home.moved bytes keys updateId time).persist = .ok frame ∧
      before.writeBucket (home.moved bytes keys updateId time) (.generation home.updateId) =
        .ok (before.putBucket (home.moved bytes keys updateId time) frame) := by
  obtain ⟨stored, standing, holds⟩ := sound.stored_of_bucketAt stands.seen
  obtain ⟨frame, persisted⟩ := BucketRecord.persist_moved holds.persisted bytes keys updateId time
  refine ⟨frame, persisted, Records.writeBucket_eq_ok_iff.2 ⟨frame, persisted, ?_, rfl⟩⟩
  change (before.buckets.get? (bucketPath home.volume home.name)).map (·.generation) = _
  rw [standing, Option.map_some, holds.updateId]

/-- A property of sound stores that is lost neither when a key is dropped nor when the usage of a
bucket is moved. -/
structure Stable (holds : Records → Prop) : Prop where
  sound : ∀ {records : Records}, holds records → records.Sound
  dropKey : ∀ {records : Records}, holds records → ∀ path, holds (records.dropKey path)
  moves : ∀ {records moved : Records} {volume name : String} {bytes keys : Int64},
    holds records → records.Moves volume name bytes keys moved → holds moved

/-- Soundness is kept by removing keys and by moving usage. -/
theorem stable_sound : Stable Sound where
  sound := id
  dropKey sound := sound.dropKey
  moves sound moves := moves.sound sound

/-- A name is that of one bucket at most. -/
theorem Home.unique {first second : BucketRecord} (home : before.Home volume name first)
    (other : before.Home volume name second) : first = second :=
  Option.some.inj (home.seen.symm.trans other.seen)

/-- A move of usage moves the counters of the home that its name leads to, and leaves the other
homes. -/
theorem Moves.stays (moves : before.Moves volume name bytes keys after)
    (sound : before.BucketsSound) {otherVolume otherName : String} {other : BucketRecord}
    (home : before.Home otherVolume otherName other) : ∃ next,
      after.Home otherVolume otherName next ∧
        ((next = other ∧ before.resolve? volume name ≠ some other) ∨
          (before.resolve? volume name = some other ∧
            ∃ updateId time, next = other.moved bytes keys updateId time)) := by
  obtain ⟨target, updateId, time, frame, stands, leads, persisted⟩ := moves
  have wellFormed := (stands.wellFormed sound).moved bytes keys updateId time
  have seen : (before.putBucket _ frame).bucketAt (bucketPath otherVolume otherName) =
      if _ = bucketPath target.volume target.name then _ else _ :=
    bucketAt_putBucket wellFormed persisted _
  by_cases own : target = other
  · subst own
    rw [home.volume, home.name, if_pos rfl] at seen
    exact ⟨_, ⟨seen, home.volume, home.name, home.source⟩, .inr ⟨leads, updateId, time, rfl⟩⟩
  · rw [if_neg fun same => own ?_, home.seen] at seen
    · exact ⟨other, ⟨seen, home.volume, home.name, home.source⟩,
        .inl ⟨rfl, fun here => own (Option.some.inj (leads.symm.trans here))⟩⟩
    · exact Option.some.inj (stands.seen.symm.trans (same ▸ home.seen))

/-- The counters of a bucket were moved by deltas, and every other bucket stays. -/
structure Recounts (before after : Records) (home : BucketRecord) (bytes keys : Int64) : Prop where
  stood : before.Home home.volume home.name home
  stands : ∃ next, after.Home home.volume home.name next ∧
    next.usedBytes = home.usedBytes + bytes ∧ next.usedKeys = home.usedKeys + keys
  others : ∀ path, path ≠ bucketPath home.volume home.name →
    after.buckets.get? path = before.buckets.get? path

/-- A move of usage over the buckets of a store recounts the bucket that its name leads to. -/
theorem Moves.recounts {middle : Records} (moves : middle.Moves volume name bytes keys after)
    (sound : before.BucketsSound) (same : middle.buckets = before.buckets) :
    ∃ home, before.resolve? volume name = some home ∧ before.Recounts after home bytes keys := by
  obtain ⟨home, updateId, time, frame, stands, leads, persisted⟩ := moves
  have stood : before.Home home.volume home.name home := stands.of_buckets same.symm
  have wellFormed := (stood.wellFormed sound).moved bytes keys updateId time
  refine ⟨home, (resolve?_of_buckets same ..).symm.trans leads, stood,
    ⟨home.moved bytes keys updateId time, ⟨?_, rfl, rfl, stood.source⟩, rfl, rfl⟩,
    fun path other => ?_⟩
  · exact (bucketAt_putBucket wellFormed persisted _).trans (if_pos rfl)
  · unfold putBucket
    rw [Dictionary.get?_insert, same]
    exact if_neg other

/-- Nothing is seen under a free path. -/
theorem bucketAt_of_free {path : String} (free : before.buckets.get? path = none) :
    before.bucketAt path = none := by
  rw [bucketAt, free, Option.bind_none]

/-- A bucket written under a free path leaves the homes. -/
theorem Home.putBucket {home bucket : BucketRecord} (stands : before.Home volume name home)
    (wellFormed : bucket.WellFormed) {frame : List UInt8}
    (persisted : bucket.persist = .ok frame)
    (free : before.buckets.get? (bucketPath bucket.volume bucket.name) = none) :
    (before.putBucket bucket frame).Home volume name home := by
  refine ⟨?_, stands.volume, stands.name, stands.source⟩
  rw [bucketAt_putBucket wellFormed persisted, if_neg fun same => ?_, stands.seen]
  have there := stands.seen
  rw [same, bucketAt_of_free free] at there
  cases there

/-- A written bucket that is no link is a home. -/
theorem home_putBucket {bucket : BucketRecord} (wellFormed : bucket.WellFormed)
    {frame : List UInt8} (persisted : bucket.persist = .ok frame)
    (source : bucket.source? = none) :
    (before.putBucket bucket frame).Home bucket.volume bucket.name bucket :=
  ⟨(bucketAt_putBucket wellFormed persisted _).trans (if_pos rfl), rfl, rfl, source⟩

end Records

namespace BucketRecord

/-- A later update of a bucket is the one it is moved to. -/
theorem advanceUpdate_charge (bucket : BucketRecord) (bytes keys : Int64) {updateId : UInt64}
    (above : bucket.updateId < updateId) (time : UInt64) :
    { (bucket.charge bytes keys).advanceUpdate updateId with modified := time } =
      bucket.moved bytes keys updateId time := by
  have largest : max bucket.updateId updateId = updateId := if_pos (UInt64.le_of_lt above)
  unfold advanceUpdate moved
  rw [show (bucket.charge bytes keys).updateId = bucket.updateId from rfl, largest]

end BucketRecord

namespace Action

open Service

variable {before : Service} {volume bucket : String} {bytes keys : Int64}

/-- A bucket is created under a name that was free, or nothing is. -/
theorem ensures_createBucket (before : Service) (draft : BucketDraft) :
    (createBucket draft).Ensures before
    (fun created after => created.WellFormed ∧ draft.volume = some created.volume ∧
      draft.name = some created.name ∧ ∃ frame, created.persist = .ok frame ∧
        before.records.buckets.get? (bucketPath created.volume created.name) = none ∧
        before.Leaves after (before.records.putBucket created frame) before.allocator)
    (fun _ after => before.Leaves after before.records before.allocator) := by
  refine ensures_now.bind fun time first ticked => ?_
  refine ensures_takeObjectId.bind fun objectId second numbered => ?_
  have idle := ticked.trans numbered
  refine ensures_takeGeneration.bind fun updateId third taken => ?_
  obtain ⟨-, rfl⟩ := taken
  have halted := idle.trans_halted (halted_take second)
  dsimp only
  split
  · exact ensures_fail halted.leaves
  · rename_i created built
    obtain ⟨wellFormed, givenVolume, givenName⟩ := BucketDraft.build_eq_ok built
    refine ((ensures_storeBucket created).mono (fun _ _ known => known) ?_).bind
      fun _ final stored => ?_
    · rintro fault after ⟨rfl, -⟩
      exact ⟨halted.records, halted.allocator, halted.schedule, halted.generation⟩
    · obtain ⟨records, changed, rfl⟩ := stored
      rw [halted.records] at changed
      obtain ⟨frame, persisted, free, rfl⟩ := Records.createBucket_eq_ok_iff.1 changed
      exact ensures_pure ⟨wellFormed, givenVolume, givenName, frame, persisted, free,
        rfl, halted.allocator, halted.schedule, halted.generation⟩

/-- A bucket is read if it is there; where it is, only a refused call keeps it from being read. -/
theorem ensures_requireBucket (sound : before.records.BucketsSound) (volume bucket : String) :
    (requireBucket volume bucket).Ensures before
      (fun found after => before.Idle after ∧
        before.outages.calls .readBucket < after.outages.calls .readBucket ∧
        before.records.bucketAt (bucketPath volume bucket) = some found)
      (fun fault after => before.Idle after ∧ (∃ cause, fault = .error cause) ∧
        ((before.records.bucketAt (bucketPath volume bucket)).isSome →
          before.RefusedBucket after)) := by
  refine ((ensures_readBucket sound volume bucket).mono (fun _ _ known => known)
    fun fault after known => ⟨known.1, known.2.1, fun _ => known.2.2.bucket_read⟩).bind
    fun found middle known => ?_
  obtain ⟨idle, read, rfl⟩ := known
  cases found : before.records.bucketAt (bucketPath volume bucket) with
  | none => exact ensures_fail ⟨idle, ⟨_, rfl⟩, fun there => by cases there⟩
  | some record => exact ensures_pure ⟨idle, read, rfl⟩

/-- A name is followed to the bucket that it leads to. -/
theorem ensures_resolveBucket (sound : before.records.BucketsSound) (volume bucket : String) :
    (resolveBucket volume bucket).Ensures before
      (fun home after => before.Idle after ∧ before.records.resolve? volume bucket = some home ∧
        before.outages.calls .readBucket + before.records.reads volume bucket ≤
          after.outages.calls .readBucket)
      (fun fault after => before.Idle after ∧ (∃ cause, fault = .error cause) ∧
        ((before.records.resolve? volume bucket).isSome → before.RefusedBucket after)) := by
  refine ((ensures_requireBucket sound volume bucket).mono (fun _ _ known => known)
    fun fault after known => ⟨known.1, known.2.1, fun leads =>
      known.2.2 (Option.isSome_of_isSome_bind leads)⟩).bind
    fun record middle known => ?_
  obtain ⟨idle, read, seen⟩ := known
  unfold Records.resolve? Records.reads
  rw [seen, Option.bind_some, Option.bind_some]
  cases source : record.source? with
  | none => exact ensures_pure ⟨idle, rfl, read⟩
  | some target =>
      obtain ⟨sourceVolume, sourceBucket⟩ := target
      have soundMiddle : middle.records.BucketsSound := idle.records.symm ▸ sound
      refine ((ensures_requireBucket soundMiddle sourceVolume sourceBucket).mono
        (fun _ _ known => known) fun fault after known => ⟨idle.trans known.1, known.2.1,
          fun leads => idle.refusedBucket (known.2.2
            (idle.records ▸ Option.isSome_of_isSome_filter _ _ leads))⟩).bind
        fun found final known => ?_
      obtain ⟨again, readAgain, seenSource⟩ := known
      rw [idle.records] at seenSource
      dsimp only
      rw [seenSource]
      cases link : found.isLink with
      | true =>
          exact ensures_fail ⟨idle.trans again, ⟨_, rfl⟩, fun leads => by simp [link] at leads⟩
      | false =>
          refine ensures_pure ⟨idle.trans again, by simp [link], ?_⟩
          rw [Option.isSome_some, if_pos rfl]
          omega

/-- One attempt moves the usage of a bucket, or its write is refused and nothing changes. -/
theorem ensures_tryUsage (sound : before.records.BucketsSound) (volume bucket : String)
    (bytes keys : Int64) : (tryUsage volume bucket bytes keys).Ensures before
    (fun result after => match result with
      | .ok () => ∃ records, before.records.Moves volume bucket bytes keys records ∧
          { before with records }.Idle after
      | .error _ => before.Idle after ∧ before.RefusedBucket after)
    (fun fault after => before.Ended after fault ∧ ∀ cause, fault = .error cause →
      ∀ other, before.records.Home volume bucket other → before.RefusedBucket after) := by
  refine ((ensures_resolveBucket sound volume bucket).mono (fun _ _ known => known)
    fun fault after known => ⟨known.1.ended fault, fun _ _ other home =>
      known.2.2 (home.resolve ▸ rfl)⟩).bind fun home first known => ?_
  obtain ⟨found, resolved, -⟩ := known
  have stands := sound.home_of_resolve resolved
  refine ((ensures_generationAbove home.updateId).mono (fun _ _ known => known) ?_).bind
    fun updateId second known => ?_
  · rintro _ after ⟨⟨cause, rfl⟩, halted⟩
    exact ⟨found.trans_halted halted, fun _ same => by cases same⟩
  obtain ⟨drawn, -, above, -⟩ := known
  refine ensures_now.bind fun time third ticked => ?_
  have idle := (found.trans drawn).trans ticked
  rw [home.advanceUpdate_charge bytes keys above time]
  have passing : ¬ Method.writeBucket.Lasting := fun lasting => lasting.2.2 rfl
  -- The bucket was read in this attempt, so the write can only fail by being refused.
  obtain ⟨frame, persisted, writes⟩ := stands.writeBucket sound bytes keys updateId time
  rw [← idle.records] at writes
  refine (ensures_writeBucket _ _).attempt _ ?_ ?_ ?_
  · rintro _ after ⟨records, changed, rfl⟩
    cases changed.symm.trans writes
    rw [idle.records]
    exact ⟨_, .intro home updateId time frame stands resolved persisted,
      (idle.trans (idle_counted passing third)).withRecords _⟩
  · rintro cause after ⟨rfl, same, -, refused⟩
    refine ⟨idle.trans (idle_counted passing third), ?_⟩
    rcases refused with refused | failed
    · exact idle.refusedBucket refused.bucket_write
    · cases failed.symm.trans writes
  · rintro cause after ⟨rfl, same, different, -⟩
    cases different

/-- Moving the usage of a bucket moves it once, or leaves it. -/
theorem ensures_updateUsage (sound : before.records.BucketsSound) (volume bucket : String)
    (bytes keys : Int64) (more : Nat) : (updateUsage volume bucket bytes keys more).Ensures before
    (fun _ after => ∃ records, before.records.Moves volume bucket bytes keys records ∧
      { before with records }.Idle after)
    (fun fault after => before.Ended after fault ∧ ∀ cause, fault = .error cause →
      ∀ other, before.records.Home volume bucket other → before.RefusedBucket after) := by
  induction more generalizing before with
  | zero =>
      refine (ensures_tryUsage sound volume bucket bytes keys).bind fun result after known => ?_
      cases result with
      | ok _ => exact known
      | error cause => exact ⟨known.1, fun _ _ _ _ => known.2⟩
  | succ more ih =>
      refine (ensures_tryUsage sound volume bucket bytes keys).bind fun result middle known => ?_
      cases result with
      | ok _ => exact known
      | error cause =>
          obtain ⟨idle, refused⟩ := known
          dsimp only
          split
          · have soundMiddle : middle.records.BucketsSound := idle.records.symm ▸ sound
            refine (ih soundMiddle).mono ?_ ?_
            · rintro _ after ⟨records, moves, moved⟩
              rw [idle.records] at moves
              exact ⟨records, moves, (idle.withRecords records).trans moved⟩
            · rintro fault after ⟨ended, -⟩
              exact ⟨idle.trans_ended ended, fun _ _ _ _ => refused.onward ended.halted.toStill⟩
          · exact ensures_fail ⟨idle, fun _ _ _ _ => refused⟩

/-- Charging moves the usage of the bucket that a name leads to. Where the bucket is there, an error
is that of a refused bucket call. -/
theorem ensures_chargeUsage (sound : before.records.BucketsSound) (settings : Settings)
    (volume bucket : String) (bytes keys : Int64) :
    (chargeUsage settings volume bucket bytes keys).Ensures before
      (fun _ after => ∃ records, before.records.Moves volume bucket bytes keys records ∧
        { before with records }.Idle after)
      (fun fault after => before.Ended after fault ∧ ∀ cause, fault = .error cause →
        ∀ other, before.records.Home volume bucket other → before.RefusedBucket after) :=
  ensures_updateUsage sound volume bucket bytes keys _

end Action

end ObjectLedger
